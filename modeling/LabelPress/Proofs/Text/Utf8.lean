import LabelPress.Text.Utf8

/-!
# Well-formed UTF-8 is read as itself

The bytes of a character are a first byte, which announces how many follow and bounds the second
one, and bytes that carry six bits each.  Reading them puts the bits together again and stops
behind the last one, whatever stands there (`character_utf8EncodeChar`).  So a text comes back from
its bytes, also in front of bytes that are no text (`decode_encode_append`).
-/

namespace LabelPress.Text

/-! ## Announcements of first bytes -/

theorem announce?_of_two : ∀ bits, 2 ≤ bits → bits < 32 →
    announce? (bits + 0xC0) = some ⟨bits, 0x80, 0xBF, 0⟩ := by
  intro bits lower upper
  have range : 0xC2 ≤ bits + 0xC0 ∧ bits + 0xC0 ≤ 0xDF := by omega
  rw [announce?, if_pos range, Nat.add_sub_cancel]

/-- Three bytes: neither overlong forms nor surrogates are announced. -/
theorem announce?_of_three : ∀ bits < 16,
    announce? (bits + 0xE0) =
      some ⟨bits, if bits = 0 then 0xA0 else 0x80, if bits = 13 then 0x9F else 0xBF, 1⟩ := by
  decide

/-- Four bytes: neither overlong forms nor values behind the last character are announced. -/
theorem announce?_of_four : ∀ bits < 5,
    announce? (bits + 0xF0) =
      some ⟨bits, if bits = 0 then 0x90 else 0x80, if bits = 4 then 0x8F else 0xBF, 2⟩ := by
  decide

theorem le_of_announce? {first : Nat} {announcement : Announcement}
    (announced : announce? first = some announcement) :
    0xC2 ≤ first := by
  by_cases below : 0xC2 ≤ first
  · exact below
  · have none : announce? first = none := by
      unfold announce?
      repeat rw [if_neg (by omega)]
    rw [none] at announced
    cases announced

/-! ## Bytes behind the first one -/

/-- A byte with six bits continues a character. -/
theorem complete_cons {bits more digit : Nat} (rest : List UInt8) (small : digit < 64) :
    complete bits (more + 1) (UInt8.ofNat (digit + 128) :: rest) =
      complete (64 * bits + digit) more rest := by
  have value : (UInt8.ofNat (digit + 128)).toNat = digit + 128 := by
    rw [UInt8.toNat_ofNat']
    omega
  have range : 0x80 ≤ digit + 128 ∧ digit + 128 ≤ 0xBF := by omega
  rw [complete, value, if_pos range, Nat.add_sub_cancel]

/-- A second byte within the announced range continues a character. -/
theorem character_of_announce? {first digit : Nat} {announcement : Announcement}
    (rest : List UInt8) (byte : first < 256)
    (announced : announce? first = some announcement) (small : digit < 64)
    (lower : announcement.lowest ≤ digit + 128)
    (upper : digit + 128 ≤ announcement.highest) :
    character (UInt8.ofNat first) (UInt8.ofNat (digit + 128) :: rest) =
      complete (64 * announcement.bits + digit) announcement.more rest := by
  have firstValue : (UInt8.ofNat first).toNat = first := by
    rw [UInt8.toNat_ofNat']
    omega
  have secondValue : (UInt8.ofNat (digit + 128)).toNat = digit + 128 := by
    rw [UInt8.toNat_ofNat']
    omega
  have notSingle : ¬ first < 0x80 := by
    have bound := le_of_announce? announced
    omega
  simp only [character, firstValue, if_neg notSingle, announced, secondValue]
  rw [if_pos ⟨lower, upper⟩, Nat.add_sub_cancel]

/-! ## Characters of each length -/

section Lengths

variable {code : Nat} (rest : List UInt8)

theorem character_of_one (upper : code ≤ 0x7F) :
    character (UInt8.ofNat code) rest = (Char.ofNat code, rest) := by
  have value : (UInt8.ofNat code).toNat = code := by
    rw [UInt8.toNat_ofNat']
    omega
  have single : code < 0x80 := by omega
  simp only [character, value, if_pos single]

theorem character_of_two (lower : 0x7F < code) (upper : code ≤ 0x7FF) :
    character (UInt8.ofNat (code / 64 % 32 + 0xC0))
        (UInt8.ofNat (code % 64 + 128) :: rest) =
      (Char.ofNat code, rest) := by
  have announced := announce?_of_two (code / 64 % 32) (by omega) (by omega)
  rw [character_of_announce? rest (by omega) announced (by omega) (by simp) (by simp; omega)]
  have bits : 64 * (code / 64 % 32) + code % 64 = code := by omega
  rw [complete, bits]

theorem character_of_three (lower : 0x7FF < code) (upper : code ≤ 0xFFFF)
    (valid : code < 0xD800 ∨ 0xDFFF < code) :
    character (UInt8.ofNat (code / 4096 % 16 + 0xE0))
        (UInt8.ofNat (code / 64 % 64 + 128) :: UInt8.ofNat (code % 64 + 128) :: rest) =
      (Char.ofNat code, rest) := by
  have announced := announce?_of_three (code / 4096 % 16) (by omega)
  rw [character_of_announce? _ (by omega) announced (by omega)]
  · have bits : 64 * (64 * (code / 4096 % 16) + code / 64 % 64) + code % 64 = code := by
      omega
    rw [complete_cons rest (by omega), complete, bits]
  · show (if code / 4096 % 16 = 0 then 0xA0 else 0x80) ≤ code / 64 % 64 + 128
    split <;> omega
  · show code / 64 % 64 + 128 ≤ if code / 4096 % 16 = 13 then 0x9F else 0xBF
    split <;> omega

theorem character_of_four (lower : 0xFFFF < code) (upper : code < 0x110000) :
    character (UInt8.ofNat (code / 262144 % 8 + 0xF0))
        (UInt8.ofNat (code / 4096 % 64 + 128) :: UInt8.ofNat (code / 64 % 64 + 128) ::
          UInt8.ofNat (code % 64 + 128) :: rest) =
      (Char.ofNat code, rest) := by
  have announced := announce?_of_four (code / 262144 % 8) (by omega)
  rw [character_of_announce? _ (by omega) announced (by omega)]
  · have bits :
        64 * (64 * (64 * (code / 262144 % 8) + code / 4096 % 64) + code / 64 % 64) +
          code % 64 = code := by
      omega
    rw [complete_cons _ (by omega), complete_cons rest (by omega), complete, bits]
  · show (if code / 262144 % 8 = 0 then 0x90 else 0x80) ≤ code / 4096 % 64 + 128
    split <;> omega
  · show code / 4096 % 64 + 128 ≤ if code / 262144 % 8 = 4 then 0x8F else 0xBF
    split <;> omega

end Lengths

/-- The bytes of a character are read as that character, and what is behind them is left. -/
theorem character_utf8EncodeChar (character : Char) (rest : List UInt8) :
    ∃ first behind, String.utf8EncodeChar character = first :: behind ∧
      Text.character first (behind ++ rest) = (character, rest) := by
  have valid : character.toNat < 0xD800 ∨
      0xDFFF < character.toNat ∧ character.toNat < 0x110000 :=
    character.valid
  have read : ∀ {first : UInt8} {behind : List UInt8},
      Text.character first (behind ++ rest) = (Char.ofNat character.toNat, rest) →
        Text.character first (behind ++ rest) = (character, rest) := by
    intro first behind equal
    rwa [Char.ofNat_toNat] at equal
  have code : character.val.toNat = character.toNat := rfl
  rw [String.utf8EncodeChar, code]
  split
  · rename_i one
    exact ⟨_, _, rfl, read (character_of_one rest one)⟩
  · split
    · rename_i notOne two
      exact ⟨_, _, rfl, read (character_of_two rest (by omega) two)⟩
    · split
      · rename_i notTwo three
        exact ⟨_, _, rfl, read (character_of_three rest (by omega) three (by omega))⟩
      · exact ⟨_, _, rfl, read (character_of_four rest (by omega) (by omega))⟩

/-! ## Texts -/

/-- A text is read from its bytes, and reading goes on behind them. -/
theorem decode_encode_append (text : List Char) (rest : List UInt8) :
    decode (encode text ++ rest) = text ++ decode rest := by
  induction text with
  | nil =>
      rfl
  | cons character text ih =>
      obtain ⟨first, behind, bytes, read⟩ :=
        character_utf8EncodeChar character (encode text ++ rest)
      rw [encode_cons, bytes, List.append_assoc, List.cons_append, decode_cons, read, ih]
      rfl

/-- A text comes back from its bytes. -/
@[simp]
theorem decode_encode (text : List Char) : decode (encode text) = text := by
  have whole := decode_encode_append text []
  rwa [List.append_nil, decode_nil, List.append_nil] at whole

end LabelPress.Text
