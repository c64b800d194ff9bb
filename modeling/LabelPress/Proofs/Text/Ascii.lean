import LabelPress.Text.Utf8

/-!
# Characters of a single byte

A character below U+0080 is written as one byte, and all bytes of any other character are greater
(`le_of_mem_utf8EncodeChar`).  So the bytes of a text begin with such a byte exactly if the text
begins with its character (`encode_eq_cons_iff`), and reading by bytes keeps to characters.  Leading
characters of a kind are left out of a text and of its bytes alike (`SameKind.dropWhile_encode`).
-/

namespace LabelPress.Text

theorem toNat_ofNat {code : Nat} (valid : code.isValidChar) : (Char.ofNat code).toNat = code := by
  rw [Char.ofNat, dif_pos valid]
  exact UInt32.toNat_ofNatLT

theorem encode_cons_of_ascii {character : Char} (ascii : character.toNat < 128)
    (text : List Char) :
    encode (character :: text) = UInt8.ofNat character.toNat :: encode text := by
  have single : character.val.toNat ≤ 127 := Nat.le_of_lt_succ ascii
  rw [encode_cons, String.utf8EncodeChar, if_pos single]
  rfl

theorem le_of_mem_utf8EncodeChar {character : Char} (wide : 128 ≤ character.toNat) :
    ∀ byte ∈ String.utf8EncodeChar character, 128 ≤ byte.toNat := by
  have several : ¬ character.val.toNat ≤ 127 := by
    have code : character.val.toNat = character.toNat := rfl
    omega
  have carries : ∀ number base : Nat, 128 ≤ base → number + base < 256 →
      128 ≤ (UInt8.ofNat (number + base)).toNat := by
    intro number base high byte
    rw [UInt8.toNat_ofNat', Nat.mod_eq_of_lt byte]
    omega
  intro byte member
  rw [String.utf8EncodeChar, if_neg several] at member
  split at member
  · simp only [List.mem_cons, List.not_mem_nil, or_false] at member
    rcases member with rfl | rfl <;> exact carries _ _ (by decide) (by omega)
  · split at member
    · simp only [List.mem_cons, List.not_mem_nil, or_false] at member
      rcases member with rfl | rfl | rfl <;> exact carries _ _ (by decide) (by omega)
    · simp only [List.mem_cons, List.not_mem_nil, or_false] at member
      rcases member with rfl | rfl | rfl | rfl <;> exact carries _ _ (by decide) (by omega)

theorem exists_wide_bytes {character : Char} (wide : 128 ≤ character.toNat) (text : List Char) :
    ∃ first behind, encode (character :: text) = first :: behind ∧ 128 ≤ first.toNat := by
  obtain ⟨first, others, bytes⟩ := List.exists_cons_of_ne_nil
    (String.utf8EncodeChar_ne_nil (c := character))
  refine ⟨first, others ++ encode text, ?_, ?_⟩
  · rw [encode_cons, bytes, List.cons_append]
  · exact le_of_mem_utf8EncodeChar wide first (bytes ▸ List.mem_cons_self)

/-- Bytes of a text begin with a single-byte character exactly if the text does. -/
theorem encode_eq_cons_iff {character : Char} (ascii : character.toNat < 128) {text : List Char}
    {rest : List UInt8} :
    encode text = UInt8.ofNat character.toNat :: rest ↔
      ∃ behind, text = character :: behind ∧ rest = encode behind := by
  have value : (UInt8.ofNat character.toNat).toNat = character.toNat := by
    rw [UInt8.toNat_ofNat']
    omega
  constructor
  · intro bytes
    cases text with
    | nil =>
        cases bytes
    | cons first text =>
        by_cases single : first.toNat < 128
        · rw [encode_cons_of_ascii single, List.cons.injEq] at bytes
          have firstValue : (UInt8.ofNat first.toNat).toNat = first.toNat := by
            rw [UInt8.toNat_ofNat']
            omega
          have same : first.toNat = character.toNat := by
            rw [← firstValue, bytes.1, value]
          exact ⟨text, by rw [Char.toNat_inj.mp same], bytes.2.symm⟩
        · obtain ⟨byte, behind, opened, high⟩ := exists_wide_bytes (Nat.le_of_not_lt single) text
          rw [opened, List.cons.injEq] at bytes
          rw [bytes.1, value] at high
          omega
  · rintro ⟨behind, rfl, rfl⟩
    exact encode_cons_of_ascii ascii behind

/-- The bytes of a text go on with those of single-byte characters exactly if the text does. -/
theorem encode_eq_append_iff {word : List Char} (ascii : ∀ character ∈ word, character.toNat < 128)
    {text : List Char} {rest : List UInt8} :
    encode text = encode word ++ rest ↔ ∃ behind, text = word ++ behind ∧ rest = encode behind := by
  constructor
  · induction word generalizing text with
    | nil =>
        intro bytes
        exact ⟨text, rfl, bytes.symm⟩
    | cons character word ih =>
        intro bytes
        obtain ⟨first, later⟩ := List.forall_mem_cons.mp ascii
        rw [encode_cons_of_ascii first, List.cons_append] at bytes
        obtain ⟨others, rfl, joined⟩ := (encode_eq_cons_iff first).mp bytes
        obtain ⟨behind, rfl, rest⟩ := ih later joined.symm
        exact ⟨behind, rfl, rest⟩
  · rintro ⟨behind, rfl, rfl⟩
    exact List.flatMap_append

/-! ## Leading characters of a kind -/

/-- A kind of characters of a single byte, told by the characters and by their bytes. -/
structure SameKind (ofByte : UInt8 → Bool) (ofCharacter : Char → Bool) : Prop where
  ascii : ∀ character : Char, ofCharacter character = true → character.toNat < 128
  byte : ∀ character : Char, character.toNat < 128 →
    ofByte (UInt8.ofNat character.toNat) = ofCharacter character
  wide : ∀ byte : UInt8, 128 ≤ byte.toNat → ofByte byte = false

namespace SameKind

variable {ofByte : UInt8 → Bool} {ofCharacter : Char → Bool}

/-- A byte of the kind is the code of a character of the kind. -/
theorem of_ofNat
    (ascii : ∀ character : Char, ofCharacter character = true → character.toNat < 128)
    (code : ∀ byte : UInt8, ofByte byte = ofCharacter (Char.ofNat byte.toNat)) :
    SameKind ofByte ofCharacter where
  ascii := ascii
  byte character single := by
    have value : (UInt8.ofNat character.toNat).toNat = character.toNat := by
      rw [UInt8.toNat_ofNat']
      omega
    rw [code, value, Char.ofNat_toNat]
  wide byte high := by
    have bound : byte.toNat < 256 := byte.toNat_lt
    have value : (Char.ofNat byte.toNat).toNat = byte.toNat :=
      toNat_ofNat (Or.inl (by omega))
    rw [code, Bool.eq_false_iff]
    intro kind
    have single := ascii _ kind
    omega

/-- Behind a character that is not of the kind nothing is taken. -/
theorem encode_cons_of_neg (same : SameKind ofByte ofCharacter) {character : Char}
    (other : ofCharacter character = false) (text : List Char) :
    ∃ first behind, encode (character :: text) = first :: behind ∧ ofByte first = false := by
  by_cases single : character.toNat < 128
  · refine ⟨_, _, encode_cons_of_ascii single text, ?_⟩
    rw [same.byte character single, other]
  · obtain ⟨first, behind, bytes, high⟩ := exists_wide_bytes (Nat.le_of_not_lt single) text
    exact ⟨first, behind, bytes, same.wide first high⟩

theorem dropWhile_encode (same : SameKind ofByte ofCharacter) (text : List Char) :
    (encode text).dropWhile ofByte = encode (text.dropWhile ofCharacter) := by
  induction text with
  | nil =>
      rfl
  | cons character text ih =>
      cases kind : ofCharacter character with
      | true =>
          have single := same.ascii character kind
          have byte : ofByte (UInt8.ofNat character.toNat) = true := by
            rw [same.byte character single, kind]
          rw [encode_cons_of_ascii single, List.dropWhile_cons_of_pos byte,
            List.dropWhile_cons_of_pos kind, ih]
      | false =>
          obtain ⟨first, behind, bytes, byte⟩ := same.encode_cons_of_neg kind text
          rw [List.dropWhile_cons_of_neg (by simp [kind]), bytes,
            List.dropWhile_cons_of_neg (by simp [byte])]

theorem takeWhile_encode (same : SameKind ofByte ofCharacter) (text : List Char) :
    (encode text).takeWhile ofByte = encode (text.takeWhile ofCharacter) := by
  induction text with
  | nil =>
      rfl
  | cons character text ih =>
      cases kind : ofCharacter character with
      | true =>
          have single := same.ascii character kind
          have byte : ofByte (UInt8.ofNat character.toNat) = true := by
            rw [same.byte character single, kind]
          rw [encode_cons_of_ascii single, List.takeWhile_cons_of_pos byte,
            List.takeWhile_cons_of_pos kind, encode_cons_of_ascii single, ih]
      | false =>
          obtain ⟨first, behind, bytes, byte⟩ := same.encode_cons_of_neg kind text
          rw [List.takeWhile_cons_of_neg (by simp [kind]), bytes,
            List.takeWhile_cons_of_neg (by simp [byte])]
          rfl

end SameKind

end LabelPress.Text
