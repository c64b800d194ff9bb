import LabelPress.Json.Numeral
import LabelPress.Proofs.Json.Readers
import LabelPress.Proofs.Text.Decimals
import Mathlib.Data.List.Basic

/-!
# The parts of a numeral are read as they are written

The digits before the point, those behind it and the exponent are each taken from the bytes of a
text exactly if the text goes on with them, as far as their digits reach.  What is taken is written
as the grammar says (`exists_wholeText`, `exists_fractionText`, `exists_exponentText`), and what is
written so is taken (`WholeText.reads`, `FractionText.takes`, `ExponentText.takes`).
-/

namespace LabelPress.Json

/-! ## Digits -/

theorem isSome_decimalDigit? (character : Char) :
    (Text.decimalDigit? character).isSome = Text.isDecimalDigit character := by
  unfold Text.decimalDigit? Text.isDecimalDigit
  split
  · rename_i range
    simp [range.1, range.2]
  · rename_i outside
    simpa using outside

theorem sameKind_isDigit : Text.SameKind isDigit Text.isDecimalDigit :=
  .of_ofNat
    (by
      intro character digit
      obtain ⟨value, found⟩ := Text.exists_decimalDigit? digit
      obtain ⟨small, rfl⟩ := Text.eq_ofNat_of_decimalDigit? found
      have zero : '0'.toNat = 48 := rfl
      rw [Text.toNat_ofNat (Or.inl (by omega))]
      omega)
    (fun byte => isSome_decimalDigit? _)

theorem decimalDigit?_digitChar {digit : Nat} (small : digit < 10) :
    Text.decimalDigit? (Nat.digitChar digit) = some digit := by
  have all : ∀ digit < 10, Text.decimalDigit? (Nat.digitChar digit) = some digit := by decide
  exact all digit small

theorem filterMap_digit?_encode {text : List Char}
    (digits : ∀ character ∈ text, Text.isDecimalDigit character = true) :
    (Text.encode text).filterMap digit? = text.filterMap Text.decimalDigit? := by
  have ascii : ∀ character ∈ text, character.toNat < 128 :=
    fun character member => sameKind_isDigit.ascii character (digits character member)
  rw [encode_word ascii, List.filterMap_map]
  refine List.filterMap_congr fun character member => ?_
  rw [Function.comp_apply, digit?, ofNat_byteOf (ascii character member)]

theorem isDecimalDigit_of_mem_map {digits : List Nat} (small : ∀ digit ∈ digits, digit < 10) :
    ∀ character ∈ digits.map Nat.digitChar, Text.isDecimalDigit character = true := by
  intro character member
  obtain ⟨digit, digitMember, rfl⟩ := List.mem_map.mp member
  exact Text.isDecimalDigit_of_decimalDigit? (decimalDigit?_digitChar (small digit digitMember))

theorem filterMap_map_digitChar {digits : List Nat} (small : ∀ digit ∈ digits, digit < 10) :
    (digits.map Nat.digitChar).filterMap Text.decimalDigit? = digits := by
  rw [List.filterMap_map]
  have same : ∀ digit ∈ digits, (Text.decimalDigit? ∘ Nat.digitChar) digit = some digit :=
    fun digit member => decimalDigit?_digitChar (small digit member)
  rw [List.filterMap_congr same, List.filterMap_some]

/-- A text of digits is written with their values. -/
theorem digitsText_filterMap {text : List Char} (nonempty : text ≠ [])
    (digits : ∀ character ∈ text, Text.isDecimalDigit character = true) :
    DigitsText (text.filterMap Text.decimalDigit?) text where
  nonempty := by
    intro empty
    have whole := Text.map_digitChar_filterMap digits
    rw [empty] at whole
    exact nonempty whole.symm
  small := Text.lt_of_mem_filterMap
  written := (Text.map_digitChar_filterMap digits).symm

theorem takeDigits_value (text : List Char) :
    (takeDigits (Text.encode text)).value =
      (text.takeWhile Text.isDecimalDigit).filterMap Text.decimalDigit? := by
  rw [takeDigits, sameKind_isDigit.takeWhile_encode]
  exact filterMap_digit?_encode fun character member => List.mem_takeWhile_imp member

theorem takeDigits_rest (text : List Char) :
    (takeDigits (Text.encode text)).rest =
      Text.encode (text.dropWhile Text.isDecimalDigit) :=
  sameKind_isDigit.dropWhile_encode text

/-- The digits that are taken are written at the beginning of the text. -/
theorem exists_digitsText {text : List Char}
    (nonempty : (takeDigits (Text.encode text)).value ≠ []) :
    ∃ written behind, DigitsText (takeDigits (Text.encode text)).value written ∧
      text = written ++ behind ∧
      (takeDigits (Text.encode text)).rest = Text.encode behind := by
  rw [takeDigits_value] at nonempty ⊢
  refine ⟨_, _, digitsText_filterMap ?_ fun character member => List.mem_takeWhile_imp member,
    List.takeWhile_append_dropWhile.symm, takeDigits_rest text⟩
  intro empty
  rw [empty] at nonempty
  exact nonempty rfl

/-- Written digits are taken, up to something else. -/
theorem takeDigits_append {digits : List Nat} (small : ∀ digit ∈ digits, digit < 10)
    {behind : List Char} (stops : ∀ first ∈ behind.head?, Text.isDecimalDigit first = false) :
    (takeDigits (Text.encode (digits.map Nat.digitChar ++ behind))).value = digits ∧
      (takeDigits (Text.encode (digits.map Nat.digitChar ++ behind))).rest =
        Text.encode behind := by
  have taken : behind.takeWhile Text.isDecimalDigit = [] := by
    cases behind with
    | nil => rfl
    | cons first behind => exact List.takeWhile_cons_of_neg (by simp [stops first rfl])
  have left : behind.dropWhile Text.isDecimalDigit = behind := by
    have whole := List.takeWhile_append_dropWhile (p := Text.isDecimalDigit) (l := behind)
    rwa [taken, List.nil_append] at whole
  have digit := isDecimalDigit_of_mem_map small
  rw [takeDigits_value, takeDigits_rest, List.takeWhile_append_of_pos digit,
    List.dropWhile_append_of_pos digit, taken, left, List.append_nil]
  exact ⟨filterMap_map_digitChar small, rfl⟩

/-! ## Parts of a numeral in bytes -/

/-- A value is taken, perhaps with no byte, and `rest` stands behind it. -/
def Takes {α : Type} {bytes : List UInt8} (result : Except Failure (Taken α bytes)) (value : α)
    (rest : List UInt8) : Prop :=
  ∃ notLonger, result = .ok ⟨value, rest, notLonger⟩

section Bytes

variable {bytes rest : List UInt8}

theorem takeDigits_value_ne_nil_iff :
    (takeDigits bytes).value ≠ [] ↔
      ∃ first behind, bytes = first :: behind ∧ isDigit first = true := by
  cases bytes with
  | nil =>
      simp [takeDigits]
  | cons first bytes =>
      rw [takeDigits]
      cases digit : isDigit first with
      | true =>
          obtain ⟨value, found⟩ := Option.isSome_iff_exists.mp digit
          rw [List.takeWhile_cons_of_pos digit, List.filterMap_cons_some found]
          simp [digit]
      | false =>
          rw [List.takeWhile_cons_of_neg (by simp [digit])]
          simp [digit]

theorem takes_takeFraction_iff {digits : List Nat} :
    Takes (takeFraction bytes) digits rest ↔
      (digits = [] ∧ rest = bytes ∧ ∀ first ∈ bytes.head?, first ≠ byteOf '.') ∨
      ∃ behind, bytes = byteOf '.' :: behind ∧ (takeDigits behind).value ≠ [] ∧
        digits = (takeDigits behind).value ∧ rest = (takeDigits behind).rest := by
  cases bytes with
  | nil =>
      constructor
      · rintro ⟨_, result⟩
        cases result
        exact .inl ⟨rfl, rfl, by simp⟩
      · rintro (⟨rfl, rfl, -⟩ | ⟨behind, impossible, -⟩)
        · exact ⟨Nat.le_refl _, rfl⟩
        · cases impossible
  | cons first bytes =>
      by_cases point : first = byteOf '.'
      · subst point
        constructor
        · rintro ⟨_, result⟩
          rw [takeFraction, if_pos rfl] at result
          simp only at result
          split at result
          · cases result
          · rename_i nonempty
            cases result
            exact .inr ⟨bytes, rfl, nonempty, rfl, rfl⟩
        · rintro (⟨-, -, other⟩ | ⟨behind, same, nonempty, rfl, rfl⟩)
          · exact absurd rfl (other _ rfl)
          · cases same
            refine ⟨Nat.le_succ_of_le (takeDigits bytes).notLonger, ?_⟩
            rw [takeFraction, if_pos rfl]
            simp only [if_neg nonempty]
      · constructor
        · rintro ⟨_, result⟩
          rw [takeFraction, if_neg point] at result
          cases result
          exact .inl ⟨rfl, rfl, by simpa using point⟩
        · rintro (⟨rfl, rfl, -⟩ | ⟨behind, same, -⟩)
          · refine ⟨Nat.le_refl _, ?_⟩
            rw [takeFraction, if_neg point]
          · cases same
            exact absurd rfl point

theorem takes_takeExponentDigits_iff {negative : Bool} {part : ExponentPart} :
    Takes (takeExponentDigits negative bytes) part rest ↔
      (takeDigits bytes).value ≠ [] ∧ part = ⟨negative, (takeDigits bytes).value, bytes⟩ ∧
        rest = (takeDigits bytes).rest := by
  rw [takeDigits_value_ne_nil_iff]
  constructor
  · rintro ⟨_, result⟩
    unfold takeExponentDigits at result
    split at result
    · cases result
    · rename_i first behind _
      split at result
      · rename_i digit
        cases result
        exact ⟨⟨first, behind, rfl, digit⟩, rfl, rfl⟩
      · cases result
  · rintro ⟨⟨first, behind, rfl, digit⟩, rfl, rfl⟩
    refine ⟨(takeDigits (first :: behind)).notLonger, ?_⟩
    rw [takeExponentDigits, if_pos digit]

theorem takes_takeExponentNumber_of_sign {sign : UInt8}
    (isSign : sign = byteOf '+' ∨ sign = byteOf '-') {part : ExponentPart} :
    Takes (takeExponentNumber (sign :: bytes)) part rest ↔
      Takes (takeExponentDigits (sign = byteOf '-') bytes) part rest := by
  constructor
  · rintro ⟨_, result⟩
    rw [takeExponentNumber, if_pos isSign] at result
    split at result
    · rename_i taken read
      cases result
      exact ⟨taken.notLonger, read⟩
    · cases result
  · rintro ⟨notLonger, read⟩
    refine ⟨Nat.le_succ_of_le notLonger, ?_⟩
    rw [takeExponentNumber, if_pos isSign, read]

theorem takes_takeExponentNumber_of_not_sign
    (other : ∀ first ∈ bytes.head?, ¬ (first = byteOf '+' ∨ first = byteOf '-'))
    {part : ExponentPart} :
    Takes (takeExponentNumber bytes) part rest ↔
      Takes (takeExponentDigits false bytes) part rest := by
  cases bytes with
  | nil =>
      rfl
  | cons first bytes =>
      rw [takeExponentNumber, if_neg (other first rfl)]

theorem takes_takeExponent_iff {exponent : Option ExponentPart} :
    Takes (takeExponent bytes) exponent rest ↔
      (exponent = none ∧ rest = bytes ∧
        ∀ first ∈ bytes.head?, ¬ (first = byteOf 'e' ∨ first = byteOf 'E')) ∨
      ∃ letter behind part, bytes = letter :: behind ∧
        (letter = byteOf 'e' ∨ letter = byteOf 'E') ∧ exponent = some part ∧
          Takes (takeExponentNumber behind) part rest := by
  cases bytes with
  | nil =>
      constructor
      · rintro ⟨_, result⟩
        cases result
        exact .inl ⟨rfl, rfl, by simp⟩
      · rintro (⟨rfl, rfl, -⟩ | ⟨letter, behind, part, impossible, -⟩)
        · exact ⟨Nat.le_refl _, rfl⟩
        · cases impossible
  | cons first bytes =>
      by_cases letter : first = byteOf 'e' ∨ first = byteOf 'E'
      · constructor
        · rintro ⟨_, result⟩
          rw [takeExponent, if_pos letter] at result
          split at result
          · rename_i taken read
            cases result
            exact .inr ⟨first, bytes, taken.value, rfl, letter, rfl, taken.notLonger, read⟩
          · cases result
        · rintro (⟨-, -, other⟩ | ⟨_, _, part, same, -, rfl, notLonger, read⟩)
          · exact absurd letter (other _ rfl)
          · cases same
            refine ⟨Nat.le_succ_of_le notLonger, ?_⟩
            rw [takeExponent, if_pos letter, read]
      · constructor
        · rintro ⟨_, result⟩
          rw [takeExponent, if_neg letter] at result
          cases result
          exact .inl ⟨rfl, rfl, by simpa using letter⟩
        · rintro (⟨rfl, rfl, -⟩ | ⟨_, _, part, same, isLetter, -⟩)
          · refine ⟨Nat.le_refl _, ?_⟩
            rw [takeExponent, if_neg letter]
          · cases same
            exact absurd isLetter letter

theorem reads_takeWhole_iff {digits : List Nat} :
    Reads takeWhole bytes digits rest ↔
      ∃ first behind, bytes = first :: behind ∧
        ((digit? first = some 0 ∧ isDigit (behind.headD 0) = false ∧ digits = [0] ∧ rest = behind) ∨
          ∃ digit, digit? first = some digit ∧ digit ≠ 0 ∧
            digits = digit :: (takeDigits behind).value ∧ rest = (takeDigits behind).rest) := by
  constructor
  · rintro ⟨_, result⟩
    unfold takeWhole at result
    split at result
    · cases result
    · rename_i first behind _
      split at result
      · cases result
      · rename_i zero
        split at result
        · cases result
        · rename_i alone
          cases result
          exact ⟨first, _, rfl, .inl ⟨zero, Bool.eq_false_iff.mpr alone, rfl, rfl⟩⟩
      · rename_i digit notZero found
        cases result
        exact ⟨first, behind, rfl, .inr ⟨digit, found, notZero, rfl, rfl⟩⟩
  · rintro ⟨first, behind, rfl, ⟨zero, alone, rfl, rfl⟩ | ⟨digit, found, notZero, rfl, rfl⟩⟩
    · refine ⟨Nat.lt_succ_self _, ?_⟩
      simp only [takeWhole, zero, alone, Bool.false_eq_true, if_false]
      rfl
    · refine ⟨Nat.lt_succ_of_le (takeDigits behind).notLonger, ?_⟩
      cases digit with
      | zero =>
          exact absurd rfl notZero
      | succ digit =>
          simp only [takeWhole, found]
          rfl

end Bytes

/-! ## Parts of a numeral in a text -/

section Parts

variable {text behind : List Char} {rest : List UInt8}

theorem eq_digitChar_cons {first : UInt8} {others : List UInt8} {digit : Nat}
    (bytes : Text.encode text = first :: others) (found : digit? first = some digit) :
    digit < 10 ∧ ∃ behind, text = Nat.digitChar digit :: behind ∧ others = Text.encode behind := by
  have small := (Text.eq_ofNat_of_decimalDigit? found).1
  have isDigit := Text.isDecimalDigit_of_decimalDigit? found
  have ascii := sameKind_isDigit.ascii _ isDigit
  rw [← byteOf_ofNat first, encode_eq_byteOf_cons_iff _ ascii] at bytes
  rw [Text.digitChar_of_decimalDigit? found]
  exact ⟨small, bytes⟩

theorem encode_digitChar_cons {digit : Nat} (small : digit < 10) (text : List Char) :
    Text.encode (Nat.digitChar digit :: text) =
        byteOf (Nat.digitChar digit) :: Text.encode text ∧
      digit? (byteOf (Nat.digitChar digit)) = some digit := by
  have found := decimalDigit?_digitChar small
  have ascii := sameKind_isDigit.ascii _ (Text.isDecimalDigit_of_decimalDigit? found)
  refine ⟨encode_byteOf_cons _ ascii text, ?_⟩
  rw [digit?, ofNat_byteOf ascii, found]

theorem isDigit_headD_encode
    (stops : ∀ first ∈ behind.head?, Text.isDecimalDigit first = false) :
    isDigit ((Text.encode behind).headD 0) = false := by
  cases behind with
  | nil =>
      decide
  | cons first behind =>
      obtain ⟨byte, others, bytes, notDigit⟩ :=
        sameKind_isDigit.encode_cons_of_neg (stops first rfl) behind
      rw [bytes]
      exact notDigit

theorem exists_wholeText {digits : List Nat}
    (reads : Reads takeWhole (Text.encode text) digits rest) :
    ∃ written behind, WholeText digits written ∧ text = written ++ behind ∧
      rest = Text.encode behind := by
  obtain ⟨first, others, bytes, ⟨zero, -, rfl, rfl⟩ | ⟨digit, found, notZero, rfl, rfl⟩⟩ :=
    reads_takeWhole_iff.mp reads
  · obtain ⟨-, behind, rfl, rfl⟩ := eq_digitChar_cons bytes zero
    exact ⟨['0'], behind, ⟨⟨by simp, by simp, rfl⟩, by simp⟩, rfl, rfl⟩
  · obtain ⟨small, text, rfl, rfl⟩ := eq_digitChar_cons bytes found
    have digits : ∀ character ∈ Nat.digitChar digit :: text.takeWhile Text.isDecimalDigit,
        Text.isDecimalDigit character = true := by
      refine List.forall_mem_cons.mpr ⟨?_, fun character member => List.mem_takeWhile_imp member⟩
      exact Text.isDecimalDigit_of_decimalDigit? (decimalDigit?_digitChar small)
    have written := digitsText_filterMap (List.cons_ne_nil _ _) digits
    rw [List.filterMap_cons_some (decimalDigit?_digitChar small), ← takeDigits_value] at written
    refine ⟨_, _, ⟨written, fun zero => ?_⟩, ?_, takeDigits_rest text⟩
    · exact absurd (Option.some.inj zero) notZero
    · rw [List.cons_append, List.takeWhile_append_dropWhile]

theorem WholeText.reads {digits : List Nat} (whole : WholeText digits text)
    (stops : ∀ first ∈ behind.head?, Text.isDecimalDigit first = false) :
    Reads takeWhole (Text.encode (text ++ behind)) digits (Text.encode behind) := by
  obtain ⟨digit, digits, rfl⟩ := List.exists_cons_of_ne_nil whole.nonempty
  obtain ⟨small, laterSmall⟩ := List.forall_mem_cons.mp whole.small
  rw [whole.written, List.map_cons, List.cons_append]
  obtain ⟨bytes, found⟩ :=
    encode_digitChar_cons small (digits.map Nat.digitChar ++ behind)
  refine reads_takeWhole_iff.mpr ⟨_, _, bytes, ?_⟩
  by_cases zero : digit = 0
  · subst zero
    have alone : digits = [] := (List.cons.inj (whole.alone rfl)).2
    subst alone
    exact .inl ⟨found, isDigit_headD_encode stops, rfl, rfl⟩
  · obtain ⟨taken, left⟩ := takeDigits_append laterSmall stops
    exact .inr ⟨digit, found, zero, by rw [taken], left.symm⟩

theorem exists_fractionText {digits : List Nat}
    (takes : Takes (takeFraction (Text.encode text)) digits rest) :
    ∃ written behind, FractionText digits written ∧ text = written ++ behind ∧
      rest = Text.encode behind := by
  rcases takes_takeFraction_iff.mp takes with
    ⟨rfl, rfl, -⟩ | ⟨others, bytes, nonempty, rfl, rfl⟩
  · exact ⟨[], text, .none, rfl, rfl⟩
  · obtain ⟨text, rfl, rfl⟩ := (encode_eq_byteOf_cons_iff '.' (by decide)).mp bytes
    obtain ⟨written, behind, digits, rfl, left⟩ := exists_digitsText nonempty
    exact ⟨'.' :: written, behind, .some digits, rfl, left⟩

/-- A text that does not begin with a mark has no byte of this mark in front. -/
theorem ne_byteOf_of_mem_head? {mark : Char} (ascii : mark.toNat < 128)
    (other : ∀ first ∈ text.head?, first ≠ mark) :
    ∀ first ∈ (Text.encode text).head?, first ≠ byteOf mark := by
  rintro first member rfl
  obtain ⟨others, bytes⟩ := List.head?_eq_some_iff.mp member
  obtain ⟨behind, rfl, -⟩ := (encode_eq_byteOf_cons_iff mark ascii).mp bytes
  exact other mark rfl rfl

theorem FractionText.takes {digits : List Nat} (fraction : FractionText digits text)
    (stops : ∀ first ∈ behind.head?, Text.isDecimalDigit first = false ∧ first ≠ '.') :
    Takes (takeFraction (Text.encode (text ++ behind))) digits (Text.encode behind) := by
  rw [takes_takeFraction_iff]
  cases fraction with
  | none =>
      exact .inl ⟨rfl, rfl, ne_byteOf_of_mem_head? (by decide)
        fun first member => (stops first member).2⟩
  | @some _ text written =>
      obtain ⟨taken, left⟩ :=
        takeDigits_append written.small fun first member => (stops first member).1
      rw [← written.written] at taken left
      refine .inr ⟨Text.encode (text ++ behind), encode_byteOf_cons '.' (by decide) _, ?_,
        taken.symm, left.symm⟩
      rw [taken]
      exact written.nonempty

theorem exists_exponentDigits {negative : Bool} {part : ExponentPart}
    (takes : Takes (takeExponentDigits negative (Text.encode text)) part rest) :
    part.negative = negative ∧ ∃ written behind, DigitsText part.digits written ∧
      text = written ++ behind ∧ rest = Text.encode behind := by
  obtain ⟨nonempty, rfl, rfl⟩ := takes_takeExponentDigits_iff.mp takes
  obtain ⟨written, behind, digits, opened, left⟩ := exists_digitsText nonempty
  exact ⟨rfl, written, behind, digits, opened, left⟩

theorem exists_exponentNumber {part : ExponentPart}
    (takes : Takes (takeExponentNumber (Text.encode text)) part rest) :
    ∃ sign written behind, ExponentSign part.negative sign ∧ DigitsText part.digits written ∧
      text = sign ++ (written ++ behind) ∧ rest = Text.encode behind := by
  by_cases plus : ∃ others, text = '+' :: others
  · obtain ⟨others, rfl⟩ := plus
    rw [encode_byteOf_cons '+' (by decide), takes_takeExponentNumber_of_sign (.inl rfl)] at takes
    obtain ⟨negative, written, behind, digits, rfl, left⟩ := exists_exponentDigits takes
    exact ⟨['+'], written, behind, negative ▸ .plus, digits, rfl, left⟩
  · by_cases minus : ∃ others, text = '-' :: others
    · obtain ⟨others, rfl⟩ := minus
      rw [encode_byteOf_cons '-' (by decide),
        takes_takeExponentNumber_of_sign (.inr rfl)] at takes
      obtain ⟨negative, written, behind, digits, rfl, left⟩ := exists_exponentDigits takes
      exact ⟨['-'], written, behind, negative ▸ .minus, digits, rfl, left⟩
    · have other (mark : Char) (without : ¬∃ others, text = mark :: others) :
          ∀ first ∈ text.head?, first ≠ mark := by
        rintro _ member rfl
        exact without (List.head?_eq_some_iff.mp member)
      have noSign : ∀ first ∈ (Text.encode text).head?,
          ¬ (first = byteOf '+' ∨ first = byteOf '-') := by
        intro first member
        have notPlus := ne_byteOf_of_mem_head? (by decide) (other '+' plus) first member
        have notMinus := ne_byteOf_of_mem_head? (by decide) (other '-' minus) first member
        exact fun sign => sign.elim notPlus notMinus
      rw [takes_takeExponentNumber_of_not_sign noSign] at takes
      obtain ⟨negative, written, behind, digits, rfl, left⟩ := exists_exponentDigits takes
      exact ⟨[], written, behind, negative ▸ .none, digits, rfl, left⟩

theorem DigitsText.takes {digits : List Nat} (written : DigitsText digits text) (negative : Bool)
    (stops : ∀ first ∈ behind.head?, Text.isDecimalDigit first = false) :
    Takes (takeExponentDigits negative (Text.encode (text ++ behind)))
      ⟨negative, digits, Text.encode (text ++ behind)⟩ (Text.encode behind) := by
  obtain ⟨taken, left⟩ := takeDigits_append written.small stops
  rw [← written.written] at taken left
  exact takes_takeExponentDigits_iff.mpr
    ⟨taken ▸ written.nonempty, by rw [taken], left.symm⟩

/-- The digits of an exponent are taken behind its sign. -/
theorem ExponentSign.takes {negative : Bool} {sign : List Char}
    (signed : ExponentSign negative sign) {digits : List Nat} (written : DigitsText digits text)
    (stops : ∀ first ∈ behind.head?, Text.isDecimalDigit first = false) :
    Takes (takeExponentNumber (Text.encode (sign ++ (text ++ behind))))
      ⟨negative, digits, Text.encode (text ++ behind)⟩ (Text.encode behind) := by
  have takes := fun negative => written.takes negative stops
  cases signed with
  | none =>
      have digit : ∀ first ∈ (text ++ behind).head?, Text.isDecimalDigit first = true := by
        obtain ⟨first, others, rfl⟩ := List.exists_cons_of_ne_nil written.nonempty
        rw [written.written]
        rintro _ ⟨rfl⟩
        exact isDecimalDigit_of_mem_map written.small _ List.mem_cons_self
      have noSign : ∀ first ∈ (Text.encode (text ++ behind)).head?,
          ¬ (first = byteOf '+' ∨ first = byteOf '-') := by
        intro first member
        have other : ∀ mark, Text.isDecimalDigit mark = false →
            ∀ first ∈ (text ++ behind).head?, first ≠ mark := by
          rintro mark notDigit first member rfl
          rw [digit first member] at notDigit
          cases notDigit
        have notPlus := ne_byteOf_of_mem_head? (by decide) (other '+' (by decide)) first member
        have notMinus := ne_byteOf_of_mem_head? (by decide) (other '-' (by decide)) first member
        exact fun sign => sign.elim notPlus notMinus
      rw [List.nil_append, takes_takeExponentNumber_of_not_sign noSign]
      exact takes false
  | plus =>
      rw [List.singleton_append, encode_byteOf_cons '+' (by decide),
        takes_takeExponentNumber_of_sign (.inl rfl)]
      exact takes false
  | minus =>
      rw [List.singleton_append, encode_byteOf_cons '-' (by decide),
        takes_takeExponentNumber_of_sign (.inr rfl)]
      exact takes true

theorem exists_exponentText {exponent : Option ExponentPart}
    (takes : Takes (takeExponent (Text.encode text)) exponent rest) :
    ∃ written behind, ExponentText exponent written ∧ text = written ++ behind ∧
      rest = Text.encode behind := by
  rcases takes_takeExponent_iff.mp takes with
    ⟨rfl, rfl, -⟩ | ⟨letter, others, part, bytes, isLetter, rfl, later⟩
  · exact ⟨[], text, .none, rfl, rfl⟩
  · obtain ⟨mark, isMark, ascii, rfl⟩ : ∃ mark, (mark = 'e' ∨ mark = 'E') ∧ mark.toNat < 128 ∧
        letter = byteOf mark := by
      rcases isLetter with rfl | rfl
      · exact ⟨'e', .inl rfl, by decide, rfl⟩
      · exact ⟨'E', .inr rfl, by decide, rfl⟩
    obtain ⟨text, rfl, rfl⟩ := (encode_eq_byteOf_cons_iff mark ascii).mp bytes
    obtain ⟨sign, written, behind, signed, digits, rfl, left⟩ := exists_exponentNumber later
    exact ⟨mark :: (sign ++ written), behind, .some isMark signed digits, by simp, left⟩

/-- What a numeral says about an exponent, without the place of its digits. -/
def ExponentPart.figures (part : ExponentPart) : Bool × List Nat :=
  (part.negative, part.digits)

theorem ExponentText.takes {exponent : Option ExponentPart} (written : ExponentText exponent text)
    (stops : ∀ first ∈ behind.head?,
      Text.isDecimalDigit first = false ∧ first ≠ 'e' ∧ first ≠ 'E') :
    ∃ taken, taken.map ExponentPart.figures = exponent.map ExponentPart.figures ∧
      Takes (takeExponent (Text.encode (text ++ behind))) taken (Text.encode behind) := by
  simp only [takes_takeExponent_iff]
  cases written with
  | none =>
      refine ⟨Option.none, rfl, .inl ⟨rfl, rfl, fun first member => ?_⟩⟩
      have notSmall := ne_byteOf_of_mem_head? (by decide)
        (fun first member => (stops first member).2.1) first member
      have notCapital := ne_byteOf_of_mem_head? (by decide)
        (fun first member => (stops first member).2.2) first member
      exact fun letter => letter.elim notSmall notCapital
  | @some letter sign text negative digits source isLetter signed written =>
      have takes := signed.takes written fun first member => (stops first member).1
      refine ⟨Option.some ⟨negative, digits, Text.encode (text ++ behind)⟩, rfl,
        .inr ⟨byteOf letter, _, _, ?_, ?_, rfl, takes⟩⟩
      · have ascii : letter.toNat < 128 := by
          rcases isLetter with rfl | rfl <;> decide
        rw [← List.append_assoc]
        exact encode_byteOf_cons letter ascii _
      · exact isLetter.imp (congrArg byteOf) (congrArg byteOf)

end Parts

end LabelPress.Json
