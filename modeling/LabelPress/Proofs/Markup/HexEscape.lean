import LabelPress.Markup.HexEscape
import LabelPress.Proofs.Text.Utf8

/-!
# Escaped data and the bytes they spell

`Spells indicator data bytes` reads escaped data from left to right: a character other than the
indicator spells its own bytes, and an indicator with two digits behind it spells one byte.  Data
that spell bytes are read as these bytes whatever stands behind them
(`Spells.bytesFrom_append`), and only such data are read at all (`bytes_eq_ok_iff`).

Bytes can be written as escapes with digits of either case (`HexGroups`), whichever character is
the indicator, a digit included.
-/

namespace LabelPress.Markup.HexEscape

open LabelPress.Text

/-- The data spell these bytes, as characters that stand for themselves and as escapes. -/
inductive Spells (indicator : Char) : List Char → List UInt8 → Prop where
  | nil : Spells indicator [] []
  | plain {character : Char} {data : List Char} {bytes : List UInt8}
      (notIndicator : character ≠ indicator)
      (later : Spells indicator data bytes) :
      Spells indicator (character :: data) (String.utf8EncodeChar character ++ bytes)
  | escape {high low : Char} {byte : UInt8} {data : List Char} {bytes : List UInt8}
      (digits : byte? high low = some byte)
      (later : Spells indicator data bytes) :
      Spells indicator (indicator :: high :: low :: data) (byte :: bytes)

/-! ## One step of reading -/

section Steps

variable (indicator : Char) (found : Array UInt8) (position : Nat)

@[simp]
theorem bytesFrom_nil : bytesFrom indicator found position [] = .ok found := by
  rw [bytesFrom]

theorem bytesFrom_cons_plain {indicator character : Char} (data : List Char)
    (notIndicator : character ≠ indicator) :
    bytesFrom indicator found position (character :: data) =
      bytesFrom indicator (found ++ String.utf8EncodeChar character)
        (position + character.utf8Size) data := by
  rw [bytesFrom.eq_def]
  exact if_neg notIndicator

theorem bytesFrom_cons_escape {high low : Char} {byte : UInt8} (data : List Char)
    (digits : byte? high low = some byte) :
    bytesFrom indicator found position (indicator :: high :: low :: data) =
      bytesFrom indicator (found.push byte)
        (position + indicator.utf8Size + high.utf8Size + low.utf8Size) data := by
  rw [bytesFrom, if_pos rfl]
  simp only [digits]

theorem append_append (front behind : List UInt8) :
    found ++ front ++ behind = found ++ (front ++ behind) :=
  Array.ext' (by simp)

end Steps

namespace Spells

variable {indicator : Char} {data : List Char} {bytes : List UInt8}

/-- Data that spell bytes are read as these bytes, and reading goes on behind the data. -/
theorem bytesFrom_append (spells : Spells indicator data bytes)
    (found : Array UInt8) (position : Nat) (behind : List Char) :
    bytesFrom indicator found position (data ++ behind) =
      bytesFrom indicator (found ++ bytes) (position + (encode data).length) behind := by
  induction spells generalizing found position with
  | nil =>
      simp
  | plain notIndicator later ih =>
      rw [List.cons_append, bytesFrom_cons_plain _ _ _ notIndicator, ih, append_append]
      simp [Nat.add_assoc]
  | escape digits later ih =>
      rw [List.cons_append, List.cons_append, List.cons_append,
        bytesFrom_cons_escape _ _ _ _ digits, ih]
      simp [Nat.add_assoc]

theorem append {data' : List Char} {bytes' : List UInt8}
    (front : Spells indicator data bytes) (behind : Spells indicator data' bytes') :
    Spells indicator (data ++ data') (bytes ++ bytes') := by
  induction front with
  | nil =>
      exact behind
  | plain notIndicator later ih =>
      rw [List.append_assoc]
      exact .plain notIndicator ih
  | escape digits later ih =>
      exact .escape digits ih

end Spells

/-- Reading finds exactly the bytes that the data spell. -/
theorem bytesFrom_eq_ok_iff {indicator : Char} {data : List Char}
    {found all : Array UInt8} {position : Nat} :
    bytesFrom indicator found position data = .ok all ↔
      ∃ bytes, Spells indicator data bytes ∧ all = found ++ bytes := by
  constructor
  · intro read
    fun_induction bytesFrom indicator found position data with
    | case1 found position =>
        cases read
        exact ⟨[], .nil, by simp⟩
    | case2 found position high low rest byte digits ih =>
        rcases ih read with ⟨bytes, spells, rfl⟩
        exact ⟨byte :: bytes, .escape digits spells, by simp⟩
    | case3 =>
        cases read
    | case4 =>
        cases read
    | case5 found position character rest notIndicator ih =>
        rcases ih read with ⟨bytes, spells, rfl⟩
        exact ⟨_, .plain notIndicator spells, append_append _ _ _⟩
  · rintro ⟨bytes, spells, rfl⟩
    have read := spells.bytesFrom_append found position []
    rwa [List.append_nil, bytesFrom_nil] at read

/-- The bytes of escaped data are those that the data spell. -/
theorem bytes_eq_ok_iff {indicator : Char} {data : List Char} {found : List UInt8} :
    bytes indicator data = .ok found ↔ Spells indicator data found := by
  constructor
  · intro read
    unfold bytes at read
    cases whole : bytesFrom indicator #[] 0 data with
    | error fault =>
        rw [whole] at read
        cases read
    | ok all =>
        rw [whole] at read
        cases read
        rcases bytesFrom_eq_ok_iff.mp whole with ⟨bytes, spells, rfl⟩
        simpa using spells
  · intro spells
    rw [bytes, bytesFrom_eq_ok_iff.mpr ⟨found, spells, rfl⟩]
    simp [Except.map]

/-- Data that spell the bytes of a text stand for that text. -/
theorem decode_of_spells_encode {indicator : Char} {data text : List Char}
    (spells : Spells indicator data (encode text)) :
    decode indicator data = .ok text := by
  rw [decode, bytes_eq_ok_iff.mpr spells]
  simp [Except.map]

/-! ## Bytes written as escapes -/

/-- The hexadecimal digits of a value below sixteen, in both cases. -/
def hexDigits (value : Nat) : List Char :=
  [Nat.digitChar value, (Nat.digitChar value).toUpper]

theorem hexDigit?_digitChar : ∀ value < 16,
    hexDigit? (Nat.digitChar value) = some value ∧
      hexDigit? (Nat.digitChar value).toUpper = some value := by
  decide

/-- A digit of either case is read as its value. -/
theorem hexDigit?_of_mem_hexDigits {value : Nat} {digit : Char} (small : value < 16)
    (member : digit ∈ hexDigits value) :
    hexDigit? digit = some value := by
  rcases List.mem_cons.mp member with rfl | member
  · exact (hexDigit?_digitChar value small).1
  · rw [List.mem_singleton.mp member]
    exact (hexDigit?_digitChar value small).2

/-- The bytes are written one by one as the indicator and two digits of either case. -/
inductive HexGroups (indicator : Char) : List UInt8 → List Char → Prop where
  | nil : HexGroups indicator [] []
  | cons {byte : UInt8} {high low : Char} {bytes : List UInt8} {groups : List Char}
      (upperHalf : high ∈ hexDigits (byte.toNat / 16))
      (lowerHalf : low ∈ hexDigits (byte.toNat % 16))
      (later : HexGroups indicator bytes groups) :
      HexGroups indicator (byte :: bytes) (indicator :: high :: low :: groups)

theorem byte?_of_mem_hexDigits {byte : UInt8} {high low : Char}
    (upperHalf : high ∈ hexDigits (byte.toNat / 16))
    (lowerHalf : low ∈ hexDigits (byte.toNat % 16)) :
    byte? high low = some byte := by
  have bound : byte.toNat < 256 := byte.toNat_lt
  have upperValue := hexDigit?_of_mem_hexDigits (by omega) upperHalf
  have lowerValue := hexDigit?_of_mem_hexDigits (by omega) lowerHalf
  simp only [byte?, upperValue, lowerValue]
  rw [Nat.div_add_mod, UInt8.ofNat_toNat]

/-- Bytes written as escapes are spelled by them. -/
theorem HexGroups.spells {indicator : Char} {bytes : List UInt8} {groups : List Char}
    (written : HexGroups indicator bytes groups) :
    Spells indicator groups bytes := by
  induction written with
  | nil =>
      exact .nil
  | cons upperHalf lowerHalf later ih =>
      exact .escape (byte?_of_mem_hexDigits upperHalf lowerHalf) ih

/-- Escapes consist of the indicator and of digits. -/
theorem HexGroups.eq_or_hexDigit {indicator : Char} {bytes : List UInt8} {groups : List Char}
    (written : HexGroups indicator bytes groups) {character : Char}
    (member : character ∈ groups) :
    character = indicator ∨ ∃ value, hexDigit? character = some value := by
  induction written with
  | nil =>
      cases member
  | @cons byte high low bytes groups upperHalf lowerHalf later ih =>
      have bound : byte.toNat < 256 := byte.toNat_lt
      rcases List.mem_cons.mp member with rfl | member
      · exact Or.inl rfl
      · rcases List.mem_cons.mp member with rfl | member
        · exact Or.inr ⟨_, hexDigit?_of_mem_hexDigits (by omega) upperHalf⟩
        · rcases List.mem_cons.mp member with rfl | member
          · exact Or.inr ⟨_, hexDigit?_of_mem_hexDigits (by omega) lowerHalf⟩
          · exact ih member

theorem exists_hexGroups (indicator : Char) (bytes : List UInt8) :
    ∃ groups, HexGroups indicator bytes groups := by
  induction bytes with
  | nil =>
      exact ⟨[], .nil⟩
  | cons byte bytes ih =>
      rcases ih with ⟨groups, written⟩
      exact ⟨_, .cons List.mem_cons_self List.mem_cons_self written⟩

end LabelPress.Markup.HexEscape
