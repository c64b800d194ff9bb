import LabelPress.Proofs.Json.Finite
import LabelPress.Proofs.Json.NumeralParts

/-!
# Numbers are read as they are written

A reader takes a number from a text exactly if the text goes on with one (`exists_unsignedText`,
`UnsignedText.reads`), as far as its parts reach.  A numeral stands for a whole number of 64 bits
exactly if it is that number in decimal, and any other numeral stands for a float, which is finite
(`numberText_iff`).
-/

namespace LabelPress.Json

/-! ## Numbers of 64 bits -/

/-- The number of digits behind those of another number. -/
def valueFrom (start : Nat) (digits : List Nat) : Nat :=
  digits.foldl (fun value digit => 10 * value + digit) start

theorem le_valueFrom (start : Nat) (digits : List Nat) : start ≤ valueFrom start digits := by
  induction digits generalizing start with
  | nil =>
      exact Nat.le_refl start
  | cons digit digits ih =>
      have later := ih (10 * start + digit)
      exact Nat.le_trans (by omega) later

/-- All digits are appended exactly if their number fits. -/
theorem appendDigits_eq_iff {start : Nat} (fits : start ≤ maxSignificand) {digits : List Nat}
    {significand : Nat} :
    appendDigits start digits = (significand, []) ↔
      significand = valueFrom start digits ∧ significand ≤ maxSignificand := by
  induction digits generalizing start with
  | nil =>
      rw [appendDigits, Prod.mk.injEq]
      constructor
      · rintro ⟨rfl, -⟩
        exact ⟨rfl, fits⟩
      · rintro ⟨rfl, -⟩
        exact ⟨rfl, rfl⟩
  | cons digit digits ih =>
      rw [appendDigits]
      split
      · rename_i next
        exact ih next
      · rename_i tooGreat
        constructor
        · intro same
          cases same
        · rintro ⟨rfl, small⟩
          have bound := le_valueFrom (10 * start + digit) digits
          exact absurd (Nat.le_trans bound small) tooGreat

theorem toDigits_valueFrom {start : Nat} (positive : 0 < start) {digits : List Nat}
    (small : ∀ digit ∈ digits, digit < 10) :
    Nat.toDigits 10 (valueFrom start digits) =
      Nat.toDigits 10 start ++ digits.map Nat.digitChar := by
  induction digits generalizing start with
  | nil =>
      rw [List.map_nil, List.append_nil]
      rfl
  | cons digit digits ih =>
      obtain ⟨first, later⟩ := List.forall_mem_cons.mp small
      have next := ih (show 0 < 10 * start + digit by omega) later
      rw [← Nat.toDigits_append_toDigits (by decide) positive first,
        Nat.toDigits_of_lt_base first, List.append_assoc] at next
      exact next

/-- Digits without leading zeros are those of their number. -/
theorem WholeText.eq_toDigits {digits : List Nat} {text : List Char}
    (whole : WholeText digits text) :
    text = Nat.toDigits 10 (valueFrom 0 digits) := by
  obtain ⟨digit, digits, rfl⟩ := List.exists_cons_of_ne_nil whole.nonempty
  obtain ⟨small, laterSmall⟩ := List.forall_mem_cons.mp whole.small
  rw [whole.written]
  by_cases zero : digit = 0
  · subst zero
    have alone : digits = [] := (List.cons.inj (whole.alone rfl)).2
    subst alone
    rfl
  · have positive : 0 < 10 * 0 + digit := by omega
    rw [valueFrom, List.foldl_cons, ← valueFrom, toDigits_valueFrom positive laterSmall,
      Nat.mul_zero, Nat.zero_add, Nat.toDigits_of_lt_base small]
    rfl

theorem head?_toDigits_ne_zero {value : Nat} (positive : 0 < value) :
    (Nat.toDigits 10 value).head? ≠ some '0' := by
  induction value using Nat.strongRecOn with
  | ind value ih =>
      by_cases small : value < 10
      · rw [Nat.toDigits_of_lt_base small, List.head?_cons]
        intro same
        rw [Option.some.injEq, Nat.digitChar_eq_zero] at same
        omega
      · rw [Nat.toDigits_of_base_le (by decide) (by omega),
          List.head?_append_of_ne_nil _ Nat.toDigits_ne_nil]
        exact ih (value / 10) (by omega) (by omega)

/-- A number in decimal has no leading zeros. -/
theorem exists_wholeText_toDigits (value : Nat) :
    ∃ digits, WholeText digits (Nat.toDigits 10 value) ∧ valueFrom 0 digits = value := by
  have written := digitsText_filterMap Nat.toDigits_ne_nil
    (@Text.isDecimalDigit_of_mem_toDigits value)
  have whole : WholeText ((Nat.toDigits 10 value).filterMap Text.decimalDigit?)
      (Nat.toDigits 10 value) := by
    refine ⟨written, fun zero => ?_⟩
    by_cases positive : 0 < value
    · refine absurd ?_ (head?_toDigits_ne_zero positive)
      rw [written.written, List.head?_map, zero]
      rfl
    · rw [Nat.eq_zero_of_not_pos positive]
      rfl
  have same := congrArg (Nat.ofDigitChars 10 · 0) whole.eq_toDigits
  simp only [Nat.ofDigitChars_ten_toDigits] at same
  exact ⟨_, whole, same.symm⟩

/-! ## What a numeral stands for -/

section Number

variable {negative : Bool} {whole fraction : List Nat} {exponent : Option ExponentPart}

/-- A numeral stands for a whole number of 64 bits only without a fraction and an exponent. -/
theorem number_eq_ok_iff {rest : List UInt8} {number : Number} :
    Numeral.number ⟨negative, whole, fraction, exponent⟩ rest = .ok number ↔
      (fraction = [] ∧ exponent = none ∧ valueFrom 0 whole ≤ maxSignificand ∧
        number = wholeNumber negative (valueFrom 0 whole)) ∨
      (¬ (fraction = [] ∧ exponent = none ∧ valueFrom 0 whole ≤ maxSignificand) ∧
        ∃ magnitude, Numeral.magnitude ⟨negative, whole, fraction, exponent⟩ rest = .ok magnitude ∧
          number = .float (if negative then -magnitude else magnitude)) := by
  have fits := @appendDigits_eq_iff 0 (by decide) whole
  rw [Numeral.number]
  generalize appendDigits 0 whole = appended at fits
  obtain ⟨significand, left⟩ := appended
  simp only
  have all : left = [] ↔ valueFrom 0 whole ≤ maxSignificand := by
    constructor
    · rintro rfl
      obtain ⟨rfl, small⟩ := fits.mp rfl
      exact small
    · intro small
      exact congrArg Prod.snd (fits.mpr ⟨rfl, small⟩)
  simp only [all]
  split
  · rename_i plain
    obtain ⟨noFraction, noExponent, small⟩ := plain
    have value := congrArg Prod.fst (fits.mpr ⟨rfl, small⟩)
    simp only at value
    rw [value, Except.ok.injEq]
    constructor
    · rintro rfl
      exact .inl ⟨noFraction, noExponent, small, rfl⟩
    · rintro (⟨-, -, -, rfl⟩ | ⟨other, -⟩)
      · rfl
      · exact absurd ⟨noFraction, noExponent, small⟩ other
  · rename_i other
    constructor
    · intro result
      split at result
      · rename_i magnitude found
        cases result
        exact .inr ⟨other, magnitude, found, rfl⟩
      · cases result
    · rintro (⟨noFraction, noExponent, small, -⟩ | ⟨-, magnitude, found, rfl⟩)
      · exact absurd ⟨noFraction, noExponent, small⟩ other
      · rw [found]

/-- Only the place of a fault depends on where a numeral stands. -/
theorem toOption_magnitude_congr {other : Option ExponentPart}
    (same : exponent.map ExponentPart.figures = other.map ExponentPart.figures)
    (rest otherRest : List UInt8) :
    (Numeral.magnitude ⟨negative, whole, fraction, exponent⟩ rest).toOption =
      (Numeral.magnitude ⟨negative, whole, fraction, other⟩ otherRest).toOption := by
  have scaledSame (found : Option Float) :
      (scaledOr ⟨.numberOutOfRange, rest⟩ found).toOption =
        (scaledOr ⟨.numberOutOfRange, otherRest⟩ found).toOption := by
    cases found <;> rfl
  cases exponent with
  | none =>
      cases other with
      | none => exact scaledSame _
      | some other => cases same
  | some part =>
      cases other with
      | none =>
          cases same
      | some other =>
          obtain ⟨negativeExponent, digits, source⟩ := part
          obtain ⟨_, _, otherSource⟩ := other
          cases same
          have parts : Numeral.parts ⟨negative, whole, fraction,
                some ⟨negativeExponent, digits, source⟩⟩ =
              Numeral.parts ⟨negative, whole, fraction,
                some ⟨negativeExponent, digits, otherSource⟩⟩ :=
            rfl
          unfold Numeral.magnitude
          simp only [parts]
          split
          · split <;> rfl
          · exact scaledSame _

theorem number_congr {other : Option ExponentPart}
    (same : exponent.map ExponentPart.figures = other.map ExponentPart.figures)
    {rest : List UInt8} (otherRest : List UInt8) {number : Number}
    (result : Numeral.number ⟨negative, whole, fraction, exponent⟩ rest = .ok number) :
    Numeral.number ⟨negative, whole, fraction, other⟩ otherRest = .ok number := by
  have none : exponent = none ↔ other = none := by
    rw [← Option.map_eq_none_iff (f := ExponentPart.figures), same, Option.map_eq_none_iff]
  have magnitudes : (Numeral.magnitude ⟨negative, whole, fraction, exponent⟩ rest).toOption =
      (Numeral.magnitude ⟨negative, whole, fraction, other⟩ otherRest).toOption :=
    toOption_magnitude_congr same rest otherRest
  rw [number_eq_ok_iff, none] at result
  rw [number_eq_ok_iff]
  refine result.imp_right fun ⟨notWhole, magnitude, found, value⟩ =>
    ⟨notWhole, magnitude, ?_, value⟩
  rw [found] at magnitudes
  cases again : Numeral.magnitude ⟨negative, whole, fraction, other⟩ otherRest with
  | ok magnitude =>
      rw [again] at magnitudes
      cases magnitudes
      rfl
  | error failure =>
      rw [again] at magnitudes
      cases magnitudes

end Number

theorem wholeNumber_eq_natural_iff {negative : Bool} {significand value : Nat} :
    wholeNumber negative significand = .natural value ↔ negative = false ∧ significand = value := by
  unfold wholeNumber
  split
  · rename_i isNegative
    split <;> simp [isNegative]
  · rename_i notNegative
    simp [notNegative]

theorem wholeNumber_eq_negative_iff {negative : Bool} {significand : Nat} {value : Int} :
    wholeNumber negative significand = .negative value ↔
      negative = true ∧ 1 ≤ significand ∧ significand ≤ 2 ^ 63 ∧ value = -(significand : Int) := by
  unfold wholeNumber
  split
  · rename_i isNegative
    split
    · rename_i range
      simp [isNegative, range, eq_comm]
    · rename_i outside
      simp only [reduceCtorEq, isNegative, true_and, false_iff]
      exact fun ⟨positive, fits, _⟩ => outside ⟨positive, fits⟩
  · rename_i notNegative
    simp [notNegative]

/-- A numeral without fraction and exponent is its number in decimal. -/
theorem UnsignedText.eq_toDigits {negative : Bool} {whole : List Nat} {text : List Char}
    (written : UnsignedText ⟨negative, whole, [], none⟩ text) :
    text = Nat.toDigits 10 (valueFrom 0 whole) := by
  cases written with
  | parts wholeWritten fractionWritten exponentWritten =>
      have noFraction : ∀ {text}, FractionText [] text → text = [] := by
        intro text fraction
        cases fraction with
        | none => rfl
        | some digits => exact absurd rfl digits.nonempty
      cases exponentWritten
      rw [noFraction fractionWritten, List.append_nil, List.append_nil, wholeWritten.eq_toDigits]

/-- A number is written as a numeral that stands for it. -/
theorem numberText_iff {number : Number} {text : List Char} :
    NumberText number text ↔
      ∃ numeral written, UnsignedText numeral written ∧
        text = signText numeral.negative ++ written ∧ numeral.number [] = .ok number := by
  have limit : maxSignificand + 1 = 2 ^ 64 := by decide
  constructor
  · intro written
    cases written with
    | @natural value fits =>
        obtain ⟨digits, whole, same⟩ := exists_wholeText_toDigits value
        refine ⟨⟨false, digits, [], none⟩, _, .parts whole .none .none, by simp [signText], ?_⟩
        refine number_eq_ok_iff.mpr (.inl ⟨rfl, rfl, by omega, ?_⟩)
        exact (wholeNumber_eq_natural_iff.mpr ⟨rfl, same⟩).symm
    | @negative value positive fits =>
        obtain ⟨digits, whole, same⟩ := exists_wholeText_toDigits value
        refine ⟨⟨true, digits, [], none⟩, _, .parts whole .none .none, by simp [signText], ?_⟩
        refine number_eq_ok_iff.mpr (.inl ⟨rfl, rfl, by omega, ?_⟩)
        exact (wholeNumber_eq_negative_iff.mpr ⟨rfl, by omega, by omega, by rw [same]⟩).symm
    | @float numeral text value written decoded finite =>
        exact ⟨numeral, text, written, rfl, decoded⟩
  · rintro ⟨numeral, text, written, rfl, decoded⟩
    cases number with
    | float value =>
        exact .float written decoded (isFinite_of_number decoded)
    | natural value =>
        obtain ⟨negative, whole, fraction, exponent⟩ := numeral
        rcases number_eq_ok_iff.mp decoded with ⟨rfl, rfl, fits, same⟩ | ⟨-, _, -, impossible⟩
        · obtain ⟨rfl, rfl⟩ := wholeNumber_eq_natural_iff.mp same.symm
          rw [written.eq_toDigits]
          exact .natural (by omega)
        · cases impossible
    | negative value =>
        obtain ⟨negative, whole, fraction, exponent⟩ := numeral
        rcases number_eq_ok_iff.mp decoded with ⟨rfl, rfl, fits, same⟩ | ⟨-, _, -, impossible⟩
        · obtain ⟨rfl, positive, small, rfl⟩ := wholeNumber_eq_negative_iff.mp same.symm
          rw [written.eq_toDigits]
          exact .negative positive small
        · cases impossible

/-! ## Reading of numbers -/

theorem readUnsigned_iff {negative : Bool} {bytes rest : List UInt8} {number : Number} :
    Reads (readUnsigned negative) bytes number rest ↔
      ∃ whole fraction exponent behindWhole behindFraction,
        Reads takeWhole bytes whole behindWhole ∧
        Takes (takeFraction behindWhole) fraction behindFraction ∧
        Takes (takeExponent behindFraction) exponent rest ∧
        Numeral.number ⟨negative, whole, fraction, exponent⟩ rest = .ok number := by
  constructor
  · rintro ⟨_, result⟩
    unfold readUnsigned at result
    split at result
    · cases result
    · rename_i whole readWhole
      split at result
      · cases result
      · rename_i fraction readFraction
        split at result
        · cases result
        · rename_i exponent readExponent
          simp only at result
          split at result
          · cases result
          · rename_i value decoded
            cases result
            exact ⟨whole.value, fraction.value, exponent.value, whole.rest, fraction.rest,
              .of_eq readWhole, ⟨fraction.notLonger, readFraction⟩,
              ⟨exponent.notLonger, readExponent⟩, decoded⟩
  · rintro ⟨whole, fraction, exponent, behindWhole, behindFraction, ⟨shorter, readWhole⟩,
      ⟨fractionNotLonger, readFraction⟩, ⟨exponentNotLonger, readExponent⟩, decoded⟩
    refine ⟨Nat.lt_of_le_of_lt (Nat.le_trans exponentNotLonger fractionNotLonger) shorter, ?_⟩
    simp only [readUnsigned, readWhole, readFraction, readExponent, decoded]

/-- Behind its sign a number is taken only as it may be written. -/
theorem exists_unsignedText {negative : Bool} {text : List Char} {number : Number}
    {rest : List UInt8} (reads : Reads (readUnsigned negative) (Text.encode text) number rest) :
    ∃ numeral written behind, numeral.negative = negative ∧ UnsignedText numeral written ∧
      numeral.number [] = .ok number ∧ text = written ++ behind ∧ rest = Text.encode behind := by
  obtain ⟨whole, fraction, exponent, _, _, readWhole, readFraction, readExponent, decoded⟩ :=
    readUnsigned_iff.mp reads
  obtain ⟨wholeText, text, wholeWritten, rfl, rfl⟩ := exists_wholeText readWhole
  obtain ⟨fractionText, text, fractionWritten, rfl, rfl⟩ := exists_fractionText readFraction
  obtain ⟨exponentText, behind, exponentWritten, rfl, rfl⟩ := exists_exponentText readExponent
  exact ⟨_, _, behind, rfl, .parts wholeWritten fractionWritten exponentWritten,
    number_congr rfl [] decoded, by simp, rfl⟩

/-- Whether a character may go on with a number. -/
def continuesNumber (character : Char) : Bool :=
  Text.isDecimalDigit character || character == '.' || character == 'e' || character == 'E'

/-- A text does not go on with a number. -/
def Stops (behind : List Char) : Prop :=
  ∀ first ∈ behind.head?, continuesNumber first = false

theorem continuesNumber_eq_false_iff {character : Char} :
    continuesNumber character = false ↔
      Text.isDecimalDigit character = false ∧ character ≠ '.' ∧ character ≠ 'e' ∧
        character ≠ 'E' := by
  simp [continuesNumber, and_assoc]

theorem ExponentText.stops {exponent : Option ExponentPart} {text behind : List Char}
    (written : ExponentText exponent text) (stops : Stops behind) :
    ∀ first ∈ (text ++ behind).head?, Text.isDecimalDigit first = false ∧ first ≠ '.' := by
  cases written with
  | none =>
      intro first member
      obtain ⟨notDigit, notPoint, -⟩ := continuesNumber_eq_false_iff.mp (stops first member)
      exact ⟨notDigit, notPoint⟩
  | some isLetter =>
      rintro _ ⟨rfl⟩
      rcases isLetter with rfl | rfl <;> decide

theorem FractionText.stops {digits : List Nat} {text behind : List Char}
    (written : FractionText digits text)
    (stops : ∀ first ∈ behind.head?, Text.isDecimalDigit first = false ∧ first ≠ '.') :
    ∀ first ∈ (text ++ behind).head?, Text.isDecimalDigit first = false := by
  cases written with
  | none =>
      exact fun first member => (stops first member).1
  | some =>
      rintro _ ⟨rfl⟩
      decide

/-- Behind its sign a number is taken as it is written, if the text does not go on with it. -/
theorem UnsignedText.reads {numeral : Numeral} {text : List Char} {number : Number}
    (written : UnsignedText numeral text) (decoded : numeral.number [] = .ok number)
    {behind : List Char} (stops : Stops behind) :
    Reads (readUnsigned numeral.negative) (Text.encode (text ++ behind)) number
      (Text.encode behind) := by
  cases written with
  | @parts negative whole fraction exponent wholeText fractionText exponentText wholeWritten
      fractionWritten exponentWritten =>
      have behindFraction := exponentWritten.stops stops
      have behindWhole := fractionWritten.stops behindFraction
      obtain ⟨taken, same, takesExponent⟩ := exponentWritten.takes fun first member =>
        have parts := continuesNumber_eq_false_iff.mp (stops first member)
        ⟨parts.1, parts.2.2⟩
      rw [List.append_assoc, List.append_assoc]
      exact readUnsigned_iff.mpr ⟨whole, fraction, taken, _, _, wholeWritten.reads behindWhole,
        fractionWritten.takes behindFraction, takesExponent,
        number_congr same.symm (Text.encode behind) decoded⟩

end LabelPress.Json
