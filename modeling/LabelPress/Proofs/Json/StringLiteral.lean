import LabelPress.Proofs.Json.Readers
import LabelPress.Proofs.Text.Utf8

/-!
# String literals are read as they are written

Behind the opening mark a reader takes a string exactly if the text goes on with a literal of its
characters and the closing mark (`reads_readString_iff`).  Each step of the reader takes one written
character: a plain one with all of its bytes, or an escape.
-/

namespace LabelPress.Json

/-! ## Hexadecimal groups -/

theorem lt_of_hexDigit? {digit : Char} {value : Nat} (found : Text.hexDigit? digit = some value) :
    digit.toNat < 128 ∧ value < 16 := by
  unfold Text.hexDigit? at found
  split at found
  · rename_i range
    have upper : digit.toNat ≤ '9'.toNat := range.2
    have nine : '9'.toNat = '0'.toNat + 9 ∧ '9'.toNat < 128 := by decide
    cases found
    omega
  · split at found
    · rename_i range
      have upper : digit.toNat ≤ 'f'.toNat := range.2
      have last : 'f'.toNat = 'a'.toNat + 5 ∧ 'f'.toNat < 128 := by decide
      cases found
      omega
    · split at found
      · rename_i range
        have upper : digit.toNat ≤ 'F'.toNat := range.2
        have last : 'F'.toNat = 'A'.toNat + 5 ∧ 'F'.toNat < 128 := by decide
        cases found
        omega
      · cases found

/-- The number of hexadecimal digits behind those of another number. -/
def hexFrom? (number : Nat) (digits : List Char) : Option Nat :=
  digits.foldlM (fun number digit => (Text.hexDigit? digit).map (16 * number + ·)) number

theorem hexFrom?_cons_eq_some {start number : Nat} {digit : Char} {digits : List Char}
    (found : hexFrom? start (digit :: digits) = some number) :
    ∃ value, Text.hexDigit? digit = some value ∧
      hexFrom? (16 * start + value) digits = some number := by
  rw [hexFrom?, List.foldlM_cons] at found
  cases read : Text.hexDigit? digit with
  | none =>
      rw [read] at found
      cases found
  | some value =>
      rw [read] at found
      exact ⟨value, rfl, found⟩

theorem ascii_of_hexFrom? {start number : Nat} {digits : List Char}
    (found : hexFrom? start digits = some number) :
    ∀ digit ∈ digits, digit.toNat < 128 := by
  induction digits generalizing start with
  | nil =>
      simp
  | cons digit digits ih =>
      obtain ⟨value, read, later⟩ := hexFrom?_cons_eq_some found
      exact List.forall_mem_cons.mpr ⟨(lt_of_hexDigit? read).1, ih later⟩

theorem lt_of_hexFrom? {start number : Nat} {digits : List Char}
    (found : hexFrom? start digits = some number) :
    number < (start + 1) * 16 ^ digits.length := by
  induction digits generalizing start with
  | nil =>
      cases found
      simp
  | cons digit digits ih =>
      obtain ⟨value, read, later⟩ := hexFrom?_cons_eq_some found
      have small := (lt_of_hexDigit? read).2
      have bound : 16 * start + value + 1 ≤ (start + 1) * 16 := by omega
      calc
        number < (16 * start + value + 1) * 16 ^ digits.length := ih later
        _ ≤ (start + 1) * 16 * 16 ^ digits.length := Nat.mul_le_mul_right _ bound
        _ = (start + 1) * 16 ^ (digits.length + 1) := by
          rw [Nat.pow_succ', Nat.mul_assoc]

namespace HexGroup

variable {number : Nat} {digits : List Char}

theorem ascii (group : HexGroup number digits) : ∀ digit ∈ digits, digit.toNat < 128 :=
  ascii_of_hexFrom? group.value

theorem lt (group : HexGroup number digits) : number < 0x10000 := by
  have bound := lt_of_hexFrom? group.value
  rwa [group.four] at bound

end HexGroup

theorem fourDigits?_eq_hexFrom? (first second third fourth : UInt8) :
    fourDigits? first second third fourth =
      hexFrom? 0 ([first, second, third, fourth].map fun byte => Char.ofNat byte.toNat) := by
  rw [hexFrom?, List.foldlM_map]
  rfl

theorem readHexGroup_iff {bytes rest : List UInt8} {number : Nat} :
    Reads readHexGroup bytes number rest ↔
      ∃ first second third fourth, bytes = first :: second :: third :: fourth :: rest ∧
        fourDigits? first second third fourth = some number := by
  constructor
  · rintro ⟨_, result⟩
    unfold readHexGroup at result
    split at result
    · rename_i first second third fourth others _
      split at result
      · rename_i value found
        cases result
        exact ⟨first, second, third, fourth, rfl, found⟩
      · cases result
    · cases result
  · rintro ⟨first, second, third, fourth, rfl, found⟩
    refine ⟨?_, ?_⟩
    · simp only [List.length_cons]
      omega
    · simp only [readHexGroup, found]
      rfl

/-- Four hexadecimal digits are taken by their number. -/
theorem reads_readHexGroup_iff {text : List Char} {number : Nat} {rest : List UInt8} :
    Reads readHexGroup (Text.encode text) number rest ↔
      ∃ digits behind, HexGroup number digits ∧ text = digits ++ behind ∧
        rest = Text.encode behind := by
  rw [readHexGroup_iff]
  constructor
  · rintro ⟨first, second, third, fourth, bytes, found⟩
    rw [fourDigits?_eq_hexFrom?] at found
    have group : HexGroup number _ := ⟨rfl, found⟩
    have spelled := encode_word group.ascii
    simp only [List.map_cons, List.map_nil, byteOf_ofNat] at spelled
    have joined : Text.encode text = [first, second, third, fourth] ++ rest := bytes
    rw [← spelled] at joined
    obtain ⟨behind, opened, code⟩ := (Text.encode_eq_append_iff group.ascii).mp joined
    exact ⟨_, behind, group, opened, code⟩
  · rintro ⟨digits, behind, group, opened, bytes⟩
    rw [(Text.encode_eq_append_iff group.ascii).mpr ⟨behind, opened, bytes⟩,
      encode_word group.ascii]
    obtain ⟨first, second, third, fourth, rfl⟩ : ∃ first second third fourth,
        digits = [first, second, third, fourth] := by
      match digits, group.four with
      | [first, second, third, fourth], _ => exact ⟨first, second, third, fourth, rfl⟩
    refine ⟨byteOf first, byteOf second, byteOf third, byteOf fourth, rfl, ?_⟩
    have same : ([first, second, third, fourth].map byteOf).map (fun byte =>
        Char.ofNat byte.toNat) = [first, second, third, fourth] := by
      rw [List.map_map]
      exact (List.map_congr_left fun digit member => ofNat_byteOf (group.ascii digit member)).trans
        (List.map_id' _)
    rw [fourDigits?_eq_hexFrom?]
    exact (congrArg (hexFrom? 0) same).trans group.value

/-! ## Escapes -/

theorem shortEscape?_eq_some_iff {letter : UInt8} {character : Char} :
    shortEscape? letter = some character ↔
      ∃ mark, (mark, character) ∈ shortEscapes ∧ letter = byteOf mark := by
  constructor
  · intro found
    unfold shortEscape? at found
    iterate 8
      split at found
      · rename_i same
        cases found
        exact ⟨_, by decide, same⟩
    cases found
  · rintro ⟨mark, known, rfl⟩
    simp only [shortEscapes, List.mem_cons, List.not_mem_nil, or_false, Prod.mk.injEq] at known
    rcases known with ⟨rfl, rfl⟩ | ⟨rfl, rfl⟩ | ⟨rfl, rfl⟩ | ⟨rfl, rfl⟩ | ⟨rfl, rfl⟩ | ⟨rfl, rfl⟩ |
      ⟨rfl, rfl⟩ | ⟨rfl, rfl⟩ <;> rfl

theorem readTrailing_iff {leading : Nat} {bytes rest : List UInt8} {character : Char} :
    Reads (readTrailing leading) bytes character rest ↔
      ∃ behind trailing, bytes = backslash :: byteOf 'u' :: behind ∧
        Reads readHexGroup behind trailing rest ∧ isTrailing trailing = true ∧
        character = joined leading trailing := by
  constructor
  · rintro ⟨_, result⟩
    unfold readTrailing at result
    split at result
    · cases result
    · rename_i first behind _
      split at result
      · cases result
      · rename_i notBackslash
        split at result
        · cases result
        · rename_i second behind _
          split at result
          · cases result
          · rename_i notLetter
            split at result
            · cases result
            · rename_i found read
              split at result
              · rename_i trailing
                simp only [Found.map, Found.behind, Found.extend, Except.ok.injEq,
                  Found.mk.injEq] at result
                obtain ⟨rfl, rfl⟩ := result
                rw [Decidable.not_not.mp notBackslash, Decidable.not_not.mp notLetter]
                exact ⟨behind, found.value, rfl, .of_eq read, trailing, rfl⟩
              · cases result
  · rintro ⟨behind, trailing, rfl, ⟨shorter, read⟩, isTrailing, same⟩
    rw [same]
    refine ⟨Nat.lt_succ_of_lt (Nat.lt_succ_of_lt shorter), ?_⟩
    simp only [readTrailing, ne_eq, not_true_eq_false, if_false, read, isTrailing, if_true,
      Found.map, Found.behind, Found.extend]

theorem readUnicodeEscape_iff {bytes rest : List UInt8} {character : Char} :
    Reads readUnicodeEscape bytes character rest ↔
      (∃ number, Reads readHexGroup bytes number rest ∧ isTrailing number = false ∧
        isLeading number = false ∧ character = Char.ofNat number) ∨
      ∃ leading middle, Reads readHexGroup bytes leading middle ∧ isTrailing leading = false ∧
        isLeading leading = true ∧ Reads (readTrailing leading) middle character rest := by
  constructor
  · rintro ⟨_, result⟩
    unfold readUnicodeEscape at result
    split at result
    · cases result
    · rename_i found read
      split at result
      · cases result
      · rename_i notTrailing
        split at result
        · rename_i leading
          split at result
          · cases result
          · rename_i trailing readTrailing
            cases result
            exact .inr ⟨found.value, found.rest, .of_eq read, Bool.eq_false_iff.mpr notTrailing,
              leading, .of_eq readTrailing⟩
        · rename_i notLeading
          cases result
          exact .inl ⟨found.value, .of_eq read, Bool.eq_false_iff.mpr notTrailing,
            Bool.eq_false_iff.mpr notLeading, rfl⟩
  · rintro (⟨number, ⟨shorter, read⟩, notTrailing, notLeading, rfl⟩ |
      ⟨leading, middle, ⟨shorter, read⟩, notTrailing, isLeading, ⟨laterShorter, readLater⟩⟩)
    · refine ⟨shorter, ?_⟩
      simp only [readUnicodeEscape, read, notTrailing, notLeading, Bool.false_eq_true, if_false]
      rfl
    · refine ⟨Nat.lt_trans laterShorter shorter, ?_⟩
      simp only [readUnicodeEscape, read, notTrailing, isLeading, Bool.false_eq_true, if_false,
        if_true, readLater]
      rfl

theorem ascii_of_mem_shortEscapes {mark character : Char}
    (known : (mark, character) ∈ shortEscapes) :
    mark.toNat < 128 ∧ byteOf mark ≠ byteOf 'u' := by
  have all : ∀ entry ∈ shortEscapes, entry.1.toNat < 128 ∧ byteOf entry.1 ≠ byteOf 'u' := by
    decide
  exact all _ known

/-! ### Surrogates -/

theorem isTrailing_iff {number : Nat} :
    isTrailing number = true ↔ ∃ low < 0x400, number = 0xDC00 + low := by
  rw [isTrailing, decide_eq_true_eq]
  constructor
  · intro range
    exact ⟨number - 0xDC00, by omega, by omega⟩
  · rintro ⟨low, bits, rfl⟩
    omega

theorem isLeading_iff {number : Nat} :
    isLeading number = true ↔ ∃ high < 0x400, number = 0xD800 + high := by
  rw [isLeading, decide_eq_true_eq]
  constructor
  · intro range
    exact ⟨number - 0xD800, by omega, by omega⟩
  · rintro ⟨high, bits, rfl⟩
    omega

/-- Two surrogates join to the character outside the basic plane whose bits they hold. -/
theorem eq_joined_iff {high low : Nat} (highBits : high < 0x400) (lowBits : low < 0x400)
    {character : Char} :
    character = joined (0xD800 + high) (0xDC00 + low) ↔
      character.toNat = 0x10000 + 0x400 * high + low := by
  rw [joined, Nat.add_sub_cancel_left, Nat.add_sub_cancel_left]
  have valid : (0x10000 + 0x400 * high + low).isValidChar := Or.inr (by omega)
  constructor
  · rintro rfl
    exact Text.toNat_ofNat valid
  · intro code
    rw [← code, Char.ofNat_toNat]

/-- A number of four hexadecimal digits that is no surrogate is that of one character. -/
theorem eq_ofNat_iff {number : Nat} (small : number < 0x10000)
    (notTrailing : isTrailing number = false) (notLeading : isLeading number = false)
    {character : Char} :
    character = Char.ofNat number ↔ character.toNat = number := by
  rw [isTrailing, decide_eq_false_iff_not] at notTrailing
  rw [isLeading, decide_eq_false_iff_not] at notLeading
  have valid : number.isValidChar := by
    unfold Nat.isValidChar
    omega
  constructor
  · rintro rfl
    exact Text.toNat_ofNat valid
  · rintro rfl
    rw [Char.ofNat_toNat]

theorem not_surrogate (character : Char) :
    isTrailing character.toNat = false ∧ isLeading character.toNat = false := by
  have valid : character.toNat < 0xD800 ∨
      0xDFFF < character.toNat ∧ character.toNat < 0x110000 :=
    character.valid
  rw [isTrailing, isLeading, decide_eq_false_iff_not, decide_eq_false_iff_not]
  omega

/-! ### Characters -/

theorem reads_readTrailing_iff {leading : Nat} {text : List Char} {character : Char}
    {rest : List UInt8} :
    Reads (readTrailing leading) (Text.encode text) character rest ↔
      ∃ trailing digits behind, HexGroup trailing digits ∧ isTrailing trailing = true ∧
        character = joined leading trailing ∧ text = '\\' :: 'u' :: (digits ++ behind) ∧
        rest = Text.encode behind := by
  rw [readTrailing_iff]
  constructor
  · rintro ⟨others, trailing, bytes, read, isTrailing, same⟩
    obtain ⟨escaped, rfl, later⟩ := (encode_eq_byteOf_cons_iff '\\' (by decide)).mp bytes
    obtain ⟨text, rfl, rfl⟩ := (encode_eq_byteOf_cons_iff 'u' (by decide)).mp later.symm
    obtain ⟨digits, behind, group, rfl, rest⟩ := reads_readHexGroup_iff.mp read
    exact ⟨trailing, digits, behind, group, isTrailing, same, rfl, rest⟩
  · rintro ⟨trailing, digits, behind, group, isTrailing, same, rfl, rfl⟩
    refine ⟨Text.encode (digits ++ behind), trailing, ?_,
      reads_readHexGroup_iff.mpr ⟨digits, behind, group, rfl, rfl⟩, isTrailing, same⟩
    rw [encode_byteOf_cons '\\' (by decide), encode_byteOf_cons 'u' (by decide), backslash]

/-- Behind a backslash and `u` a character is taken exactly as it may be written there. -/
theorem reads_readUnicodeEscape_iff {text : List Char} {character : Char} {rest : List UInt8} :
    Reads readUnicodeEscape (Text.encode text) character rest ↔
      ∃ written behind, EscapeText character ('u' :: written) ∧ text = written ++ behind ∧
        rest = Text.encode behind := by
  rw [readUnicodeEscape_iff]
  constructor
  · rintro (⟨number, read, notTrailing, notLeading, same⟩ |
      ⟨leading, middle, read, -, isLeading, readLater⟩)
    · obtain ⟨digits, behind, group, rfl, rest⟩ := reads_readHexGroup_iff.mp read
      have code := (eq_ofNat_iff group.lt notTrailing notLeading).mp same
      exact ⟨digits, behind, .code (code ▸ group), rfl, rest⟩
    · obtain ⟨digits, others, group, rfl, rfl⟩ := reads_readHexGroup_iff.mp read
      obtain ⟨trailing, trailingDigits, behind, trailingGroup, isTrailing, same, rfl, rest⟩ :=
        reads_readTrailing_iff.mp readLater
      obtain ⟨high, highBits, rfl⟩ := isLeading_iff.mp isLeading
      obtain ⟨low, lowBits, rfl⟩ := isTrailing_iff.mp isTrailing
      have code := (eq_joined_iff highBits lowBits).mp same
      exact ⟨_, behind, .pair group highBits trailingGroup lowBits code, by simp, rest⟩
  · rintro ⟨written, behind, escape, rfl, rfl⟩
    cases escape with
    | code group =>
        obtain ⟨notTrailing, notLeading⟩ := not_surrogate character
        refine .inl ⟨character.toNat, reads_readHexGroup_iff.mpr ⟨written, behind, group, rfl, rfl⟩,
          notTrailing, notLeading, ?_⟩
        rw [Char.ofNat_toNat]
    | @pair _ high low leading trailing leadingGroup highBits trailingGroup lowBits code =>
        have isLeading := isLeading_iff.mpr ⟨high, highBits, rfl⟩
        have notTrailing : isTrailing (0xD800 + high) = false := by
          rw [isTrailing, decide_eq_false_iff_not]
          omega
        refine .inr ⟨0xD800 + high, _, reads_readHexGroup_iff.mpr ⟨leading,
          '\\' :: 'u' :: (trailing ++ behind), leadingGroup, by simp, rfl⟩, notTrailing,
          isLeading, ?_⟩
        exact reads_readTrailing_iff.mpr ⟨_, trailing, behind, trailingGroup,
          isTrailing_iff.mpr ⟨low, lowBits, rfl⟩, (eq_joined_iff highBits lowBits).mpr code,
          rfl, rfl⟩
    | short known =>
        exact absurd known (by simp [shortEscapes])

theorem readEscape_iff {bytes rest : List UInt8} {character : Char} :
    Reads readEscape bytes character rest ↔
      (∃ behind, bytes = byteOf 'u' :: behind ∧ Reads readUnicodeEscape behind character rest) ∨
      ∃ letter, bytes = letter :: rest ∧ letter ≠ byteOf 'u' ∧
        shortEscape? letter = some character := by
  constructor
  · rintro ⟨_, result⟩
    unfold readEscape at result
    split at result
    · cases result
    · rename_i letter behind _
      split at result
      · rename_i same
        split at result
        · cases result
        · rename_i found read
          cases result
          exact .inl ⟨behind, by rw [same], .of_eq read⟩
      · rename_i other
        split at result
        · rename_i mark known
          cases result
          exact .inr ⟨letter, rfl, other, known⟩
        · cases result
  · rintro (⟨behind, rfl, ⟨shorter, read⟩⟩ | ⟨letter, rfl, other, known⟩)
    · refine ⟨Nat.lt_succ_of_lt shorter, ?_⟩
      simp only [readEscape, if_true, read]
      rfl
    · refine ⟨Nat.lt_succ_self _, ?_⟩
      simp only [readEscape, if_neg other, known]
      rfl

/-- Behind a backslash a character is taken exactly as it may be written there. -/
theorem reads_readEscape_iff {text : List Char} {character : Char} {rest : List UInt8} :
    Reads readEscape (Text.encode text) character rest ↔
      ∃ written behind, EscapeText character written ∧ text = written ++ behind ∧
        rest = Text.encode behind := by
  rw [readEscape_iff]
  constructor
  · rintro (⟨others, bytes, read⟩ | ⟨letter, bytes, -, found⟩)
    · obtain ⟨text, rfl, rfl⟩ := (encode_eq_byteOf_cons_iff 'u' (by decide)).mp bytes
      obtain ⟨written, behind, escape, rfl, rest⟩ := reads_readUnicodeEscape_iff.mp read
      exact ⟨_, behind, escape, rfl, rest⟩
    · obtain ⟨mark, known, rfl⟩ := shortEscape?_eq_some_iff.mp found
      obtain ⟨ascii, -⟩ := ascii_of_mem_shortEscapes known
      obtain ⟨behind, rfl, rest⟩ := (encode_eq_byteOf_cons_iff mark ascii).mp bytes
      exact ⟨[mark], behind, .short known, rfl, rest⟩
  · rintro ⟨written, behind, escape, rfl, rfl⟩
    cases written with
    | nil =>
        cases escape
    | cons first written =>
        by_cases isCode : first = 'u'
        · subst isCode
          refine .inl ⟨_, encode_byteOf_cons 'u' (by decide) _, ?_⟩
          exact reads_readUnicodeEscape_iff.mpr ⟨written, behind, escape, rfl, rfl⟩
        · cases escape with
          | short known =>
              obtain ⟨ascii, other⟩ := ascii_of_mem_shortEscapes known
              exact .inr ⟨byteOf first, encode_byteOf_cons first ascii _, other,
                shortEscape?_eq_some_iff.mpr ⟨first, known, rfl⟩⟩
          | code | pair => exact absurd rfl isCode

/-! ## Strings -/

section Strings

variable {reversed bytes taken rest : List UInt8}

theorem readStringFrom_mark_iff :
    Reads (readStringFrom reversed) (quoteMark :: bytes) taken rest ↔
      taken = reversed.reverse ∧ rest = bytes := by
  constructor
  · rintro ⟨_, result⟩
    unfold readStringFrom at result
    rw [if_pos rfl] at result
    cases result
    exact ⟨rfl, rfl⟩
  · rintro ⟨rfl, rfl⟩
    refine ⟨Nat.lt_succ_self _, ?_⟩
    rw [readStringFrom, if_pos rfl]
    rfl

theorem readStringFrom_backslash_iff :
    Reads (readStringFrom reversed) (backslash :: bytes) taken rest ↔
      ∃ character middle, Reads readEscape bytes character middle ∧
        Reads (readStringFrom ((Text.encode [character]).reverse ++ reversed)) middle
          taken rest := by
  have notMark : backslash ≠ quoteMark := by decide
  constructor
  · rintro ⟨_, result⟩
    unfold readStringFrom at result
    rw [if_neg notMark, if_pos rfl] at result
    split at result
    · cases result
    · rename_i escape read
      simp only at result
      split at result
      · cases result
      · rename_i found readLater
        rw [List.reverseAux_eq] at readLater
        cases result
        exact ⟨escape.value, escape.rest, .of_eq read, .of_eq readLater⟩
  · rintro ⟨character, middle, ⟨shorter, read⟩, ⟨laterShorter, readLater⟩⟩
    refine ⟨Nat.lt_succ_of_lt (Nat.lt_trans laterShorter shorter), ?_⟩
    rw [readStringFrom, if_neg notMark, if_pos rfl]
    simp only [read, List.reverseAux_eq, readLater]
    rfl

/-- A byte that is neither a mark nor a backslash nor a control character is taken as it is. -/
theorem readStringFrom_plain_iff {first : UInt8} (notMark : first ≠ quoteMark)
    (notBackslash : first ≠ backslash) (notControl : ¬ first < 0x20) :
    Reads (readStringFrom reversed) (first :: bytes) taken rest ↔
      Reads (readStringFrom (first :: reversed)) bytes taken rest := by
  constructor
  · rintro ⟨_, result⟩
    unfold readStringFrom at result
    rw [if_neg notMark, if_neg notBackslash, if_neg notControl] at result
    split at result
    · cases result
    · rename_i found read
      cases result
      exact .of_eq read
  · rintro ⟨shorter, read⟩
    refine ⟨Nat.lt_succ_of_lt shorter, ?_⟩
    rw [readStringFrom, if_neg notMark, if_neg notBackslash, if_neg notControl]
    simp only [read]
    rfl

theorem readStringFrom_control {first : UInt8} (control : first < 0x20) :
    ¬ Reads (readStringFrom reversed) (first :: bytes) taken rest := by
  have code : first.toNat < 32 := UInt8.lt_iff_toNat_lt.mp control
  have notMark : first ≠ quoteMark := by
    rintro rfl
    exact absurd code (by decide)
  have notBackslash : first ≠ backslash := by
    rintro rfl
    exact absurd code (by decide)
  rintro ⟨_, result⟩
  unfold readStringFrom at result
  rw [if_neg notMark, if_neg notBackslash, if_pos control] at result
  cases result

theorem readStringFrom_wide_iff {wide : List UInt8} (high : ∀ byte ∈ wide, 128 ≤ byte.toNat) :
    Reads (readStringFrom reversed) (wide ++ bytes) taken rest ↔
      Reads (readStringFrom (wide.reverse ++ reversed)) bytes taken rest := by
  induction wide generalizing reversed with
  | nil =>
      rfl
  | cons first wide ih =>
      obtain ⟨firstHigh, later⟩ := List.forall_mem_cons.mp high
      have notControl : ¬ first < 0x20 := by
        rw [UInt8.lt_iff_toNat_lt]
        exact Nat.not_lt.mpr (Nat.le_trans (by decide) firstHigh)
      have notMark (mark : UInt8) (low : mark < 0x80) : first ≠ mark := by
        rintro rfl
        exact absurd firstHigh (Nat.not_le.mpr low)
      rw [List.cons_append, readStringFrom_plain_iff (notMark _ (by decide)) (notMark _ (by decide))
        notControl, ih later, List.reverse_cons, List.append_assoc]
      rfl

end Strings

section Steps

variable {reversed taken rest : List UInt8}

/-- A plain character is taken with all of its bytes. -/
theorem reads_plain_iff {character : Char} (notMark : character ≠ '"')
    (notBackslash : character ≠ '\\') (notControl : ' ' ≤ character) {text : List Char} :
    Reads (readStringFrom reversed) (Text.encode (character :: text)) taken rest ↔
      Reads (readStringFrom ((Text.encode [character]).reverse ++ reversed)) (Text.encode text)
        taken rest := by
  by_cases ascii : character.toNat < 128
  · have code : ¬ byteOf character < 0x20 := by
      have lower : 32 ≤ character.toNat := notControl
      rw [byteOf, UInt8.lt_iff_toNat_lt, UInt8.toNat_ofNat', Nat.mod_eq_of_lt (by omega)]
      exact Nat.not_lt.mpr lower
    rw [encode_byteOf_cons character ascii, encode_byteOf_cons character ascii,
      readStringFrom_plain_iff (byteOf_ne ascii (by decide) notMark)
        (byteOf_ne ascii (by decide) notBackslash) code]
    rfl
  · have bytes : Text.encode (character :: text) =
        Text.encode [character] ++ Text.encode text := by
      simp
    rw [bytes]
    refine readStringFrom_wide_iff fun byte member => ?_
    rw [Text.encode_cons, Text.encode_nil, List.append_nil] at member
    exact Text.le_of_mem_utf8EncodeChar (Nat.le_of_not_lt ascii) byte member

/-- A character is taken as it may be written. -/
theorem reads_of_characterText {character : Char} {written : List Char}
    (first : CharacterText character written) {more : List Char}
    (later : Reads (readStringFrom ((Text.encode [character]).reverse ++ reversed))
      (Text.encode more) taken rest) :
    Reads (readStringFrom reversed) (Text.encode (written ++ more)) taken rest := by
  cases first with
  | plain notMark notBackslash notControl =>
      exact (reads_plain_iff notMark notBackslash notControl).mpr later
  | @escape written escaped =>
      rw [List.cons_append, encode_byteOf_cons '\\' (by decide)]
      exact readStringFrom_backslash_iff.mpr ⟨character, Text.encode more,
        reads_readEscape_iff.mpr ⟨written, more, escaped, rfl, rfl⟩, later⟩

theorem CharacterText.ne_nil {character : Char} {written : List Char}
    (first : CharacterText character written) : written ≠ [] := by
  cases first <;> exact List.cons_ne_nil _ _

/-- A text in which a string is read goes on with the closing mark or with a written character. -/
theorem cases_of_reads_readStringFrom {text : List Char}
    (reads : Reads (readStringFrom reversed) (Text.encode text) taken rest) :
    (∃ behind, text = '"' :: behind ∧ taken = reversed.reverse ∧ rest = Text.encode behind) ∨
      ∃ character written more, CharacterText character written ∧ text = written ++ more ∧
        Reads (readStringFrom ((Text.encode [character]).reverse ++ reversed)) (Text.encode more)
          taken rest := by
  cases text with
  | nil =>
      exact absurd reads.shorter (Nat.not_lt_zero _)
  | cons character text =>
      by_cases isMark : character = '"'
      · subst isMark
        rw [encode_byteOf_cons '"' (by decide)] at reads
        obtain ⟨rfl, rfl⟩ := readStringFrom_mark_iff.mp reads
        exact .inl ⟨text, rfl, rfl, rfl⟩
      · by_cases isBackslash : character = '\\'
        · subst isBackslash
          rw [encode_byteOf_cons '\\' (by decide)] at reads
          obtain ⟨character, middle, escape, later⟩ := readStringFrom_backslash_iff.mp reads
          obtain ⟨written, more, escaped, rfl, rfl⟩ := reads_readEscape_iff.mp escape
          exact .inr ⟨character, _, more, .escape escaped, rfl, later⟩
        · by_cases notControl : ' ' ≤ character
          · exact .inr ⟨character, [character], text, .plain isMark isBackslash notControl, rfl,
              (reads_plain_iff isMark isBackslash notControl).mp reads⟩
          · have code : character.toNat < 32 := Nat.not_le.mp notControl
            rw [encode_byteOf_cons character (by omega)] at reads
            refine absurd reads (readStringFrom_control ?_)
            rw [byteOf, UInt8.lt_iff_toNat_lt, UInt8.toNat_ofNat', Nat.mod_eq_of_lt (by omega)]
            exact code

end Steps

theorem LiteralText.reads {characters written : List Char}
    (literal : LiteralText characters written) (reversed : List UInt8) (behind : List Char) :
    Reads (readStringFrom reversed) (Text.encode (written ++ '"' :: behind))
      (reversed.reverse ++ Text.encode characters) (Text.encode behind) := by
  induction literal generalizing reversed with
  | nil =>
      rw [List.nil_append, encode_byteOf_cons '"' (by decide)]
      exact readStringFrom_mark_iff.mpr ⟨List.append_nil _, rfl⟩
  | @cons character characters written more first _ ih =>
      rw [List.append_assoc]
      refine reads_of_characterText first ?_
      have later := ih ((Text.encode [character]).reverse ++ reversed)
      rw [List.reverse_append, List.reverse_reverse, List.append_assoc] at later
      have bytes : Text.encode (character :: characters) =
          Text.encode [character] ++ Text.encode characters := by
        simp
      rwa [bytes]

/-- The induction is on what is left of the text, with the bytes taken so far generalised. -/
theorem exists_literalText {reversed taken rest : List UInt8} {text : List Char}
    (reads : Reads (readStringFrom reversed) (Text.encode text) taken rest) :
    ∃ characters written behind, LiteralText characters written ∧
      text = written ++ '"' :: behind ∧ taken = reversed.reverse ++ Text.encode characters ∧
        rest = Text.encode behind := by
  rcases cases_of_reads_readStringFrom reads with
    ⟨behind, rfl, rfl, rfl⟩ | ⟨character, written, more, first, rfl, later⟩
  · exact ⟨[], [], behind, .nil, rfl, by simp, rfl⟩
  · have shorter : more.length < (written ++ more).length := by
      have some := List.length_pos_iff.mpr first.ne_nil
      rw [List.length_append]
      omega
    obtain ⟨characters, others, behind, literal, rfl, rfl, rest⟩ := exists_literalText later
    refine ⟨character :: characters, written ++ others, behind, .cons first literal, ?_, ?_, rest⟩
    · rw [List.append_assoc]
    · simp
termination_by text.length

/-- Behind the opening mark a string is taken exactly as it may be written. -/
theorem reads_readString_iff {text : List Char} {string : String} {rest : List UInt8} :
    Reads readString (Text.encode text) string rest ↔
      ∃ written behind, LiteralText string.toList written ∧ text = written ++ '"' :: behind ∧
        rest = Text.encode behind := by
  constructor
  · rintro ⟨_, result⟩
    unfold readString at result
    split at result
    · cases result
    · rename_i found read
      have reads : Reads (readStringFrom []) (Text.encode text) found.value found.rest :=
        .of_eq read
      obtain ⟨characters, written, behind, literal, rfl, taken, rest⟩ := exists_literalText reads
      cases result
      refine ⟨written, behind, ?_, rfl, rest⟩
      simp only [taken, List.reverse_nil, List.nil_append, Text.decode_encode,
        String.toList_ofList]
      exact literal
  · rintro ⟨written, behind, literal, rfl, rfl⟩
    obtain ⟨shorter, read⟩ := literal.reads [] behind
    refine ⟨shorter, ?_⟩
    simp only [readString, read, Found.map, List.reverse_nil, List.nil_append, Text.decode_encode,
      String.ofList_toList]

end LabelPress.Json
