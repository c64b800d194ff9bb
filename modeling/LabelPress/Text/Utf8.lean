/-!
# UTF-8 with replacement

Bytes are read as UTF-8.  Where they do not form a character, the longest run of bytes that still
could have begun one (at least a single byte) is replaced by the character U+FFFD, and reading
goes on behind it.  Well-formed text is read as itself.
-/

namespace LabelPress.Text

/-- The character that stands for bytes that form none. -/
def replacement : Char := '\uFFFD'

/-- What the first byte of a character announces about the bytes behind it. -/
structure Announcement where
  /-- The bits that the first byte contributes. -/
  bits : Nat
  /-- The least second byte. -/
  lowest : Nat
  /-- The greatest second byte. -/
  highest : Nat
  /-- The number of bytes that follow the second one. -/
  more : Nat
  deriving DecidableEq, Repr

/-- The announcement of a byte that opens a character of two bytes or more. -/
def announce? (first : Nat) : Option Announcement :=
  if 0xC2 ≤ first ∧ first ≤ 0xDF then some ⟨first - 0xC0, 0x80, 0xBF, 0⟩
  else if first = 0xE0 then some ⟨0, 0xA0, 0xBF, 1⟩
  else if first = 0xED then some ⟨0xD, 0x80, 0x9F, 1⟩
  else if 0xE1 ≤ first ∧ first ≤ 0xEF then some ⟨first - 0xE0, 0x80, 0xBF, 1⟩
  else if first = 0xF0 then some ⟨0, 0x90, 0xBF, 2⟩
  else if 0xF1 ≤ first ∧ first ≤ 0xF3 then some ⟨first - 0xF0, 0x80, 0xBF, 2⟩
  else if first = 0xF4 then some ⟨4, 0x80, 0x8F, 2⟩
  else none

/--
Completes a character whose leading bits are known and that lacks `more` further bytes.  The
rest is what stands behind the character, or behind the bytes that could have begun one.
-/
def complete (bits : Nat) : (more : Nat) → (bytes : List UInt8) → Char × List UInt8
  | 0, bytes => (Char.ofNat bits, bytes)
  | _ + 1, [] => (replacement, [])
  | more + 1, byte :: bytes =>
    if 0x80 ≤ byte.toNat ∧ byte.toNat ≤ 0xBF then
      complete (64 * bits + (byte.toNat - 0x80)) more bytes
    else (replacement, byte :: bytes)

/-- The character that opens with the byte `first`, and what stands behind it. -/
def character (first : UInt8) (bytes : List UInt8) : Char × List UInt8 :=
  if first.toNat < 0x80 then (Char.ofNat first.toNat, bytes)
  else
    match announce? first.toNat, bytes with
    | some announcement, second :: rest =>
      if announcement.lowest ≤ second.toNat ∧ second.toNat ≤ announcement.highest then
        complete (64 * announcement.bits + (second.toNat - 0x80)) announcement.more rest
      else (replacement, bytes)
    | _, _ => (replacement, bytes)

theorem length_complete_le (bits more : Nat) (bytes : List UInt8) :
    (complete bits more bytes).2.length ≤ bytes.length := by
  induction more generalizing bits bytes with
  | zero => simp [complete]
  | succ more ih =>
    cases bytes with
    | nil => simp [complete]
    | cons byte bytes =>
      unfold complete
      split
      · exact Nat.le_succ_of_le (ih _ _)
      · simp

theorem length_character_le (first : UInt8) (bytes : List UInt8) :
    (character first bytes).2.length ≤ bytes.length := by
  unfold character
  split
  · simp
  · split
    · split
      · exact Nat.le_succ_of_le (length_complete_le _ _ _)
      · simp
    · simp

/-- The characters of `bytes`, put behind those of `reversed`. -/
def decodeFrom (reversed : List Char) : List UInt8 → List Char
  | [] => reversed.reverse
  | first :: bytes =>
    decodeFrom ((character first bytes).1 :: reversed) (character first bytes).2
termination_by bytes => bytes.length
decreasing_by
  have := length_character_le first bytes
  simp only [List.length_cons]
  omega

/-- The text that `bytes` hold. -/
def decode (bytes : List UInt8) : List Char :=
  decodeFrom [] bytes

/-- The bytes of a text. -/
def encode (text : List Char) : List UInt8 :=
  text.flatMap String.utf8EncodeChar

theorem decodeFrom_append (reversed base : List Char) (bytes : List UInt8) :
    decodeFrom (reversed ++ base) bytes = base.reverse ++ decodeFrom reversed bytes := by
  fun_induction decodeFrom reversed bytes with
  | case1 reversed => simp [decodeFrom]
  | case2 reversed first bytes ih =>
    rw [decodeFrom, ← List.cons_append, ih]

@[simp]
theorem decode_nil : decode [] = [] := by
  simp [decode, decodeFrom]

/-- Reading takes one character off the front and goes on with what stands behind it. -/
theorem decode_cons (first : UInt8) (bytes : List UInt8) :
    decode (first :: bytes) =
      (character first bytes).1 :: decode (character first bytes).2 := by
  rw [decode, decodeFrom]
  exact decodeFrom_append [] [(character first bytes).1] (character first bytes).2

@[simp]
theorem encode_nil : encode [] = [] := rfl

@[simp]
theorem encode_cons (character : Char) (text : List Char) :
    encode (character :: text) = String.utf8EncodeChar character ++ encode text := by
  simp [encode]

end LabelPress.Text
