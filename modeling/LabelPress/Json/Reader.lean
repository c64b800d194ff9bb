import LabelPress.Json.Fault

/-!
# Readers

A reader takes something from the beginning of a text, given as bytes, and passes on the bytes
behind it, or stops with a failure.  That the text becomes shorter is part of the result.
-/

namespace LabelPress.Json

/-- What is read from the beginning of bytes, with at least one of them. -/
structure Found (α : Type) (bytes : List UInt8) where
  /-- What is read. -/
  value : α
  /-- The bytes behind it. -/
  rest : List UInt8
  /-- At least one byte is taken. -/
  shorter : rest.length < bytes.length

/-- What is read from the beginning of bytes, perhaps with none of them. -/
structure Taken (α : Type) (bytes : List UInt8) where
  /-- What is read. -/
  value : α
  /-- The bytes behind it. -/
  rest : List UInt8
  /-- No byte is added. -/
  notLonger : rest.length ≤ bytes.length

/-- The same value, read from more bytes. -/
def Found.extend {α : Type} {bytes more : List UInt8} (found : Found α bytes)
    (longer : bytes.length ≤ more.length) : Found α more :=
  ⟨found.value, found.rest, Nat.lt_of_lt_of_le found.shorter longer⟩

/-- A value that stands for the first byte. -/
def Found.first {α : Type} (value : α) (first : UInt8) (rest : List UInt8) :
    Found α (first :: rest) :=
  ⟨value, rest, Nat.lt_succ_self _⟩

/-- A function of the value. -/
def Found.map {α β : Type} {bytes : List UInt8} (change : α → β) (found : Found α bytes) :
    Found β bytes :=
  ⟨change found.value, found.rest, found.shorter⟩

/-- The value behind the first byte. -/
def Found.behind {α : Type} {bytes : List UInt8} (found : Found α bytes) (first : UInt8) :
    Found α (first :: bytes) :=
  found.extend (Nat.le_succ _)

/-- The value behind the first byte. -/
def Taken.behind {α : Type} {bytes : List UInt8} (taken : Taken α bytes) (first : UInt8) :
    Found α (first :: bytes) :=
  ⟨taken.value, taken.rest, Nat.lt_succ_of_le taken.notLonger⟩

/-- A reader takes something from the beginning of bytes, or stops with a failure. -/
abbrev Reader (α : Type) :=
  (bytes : List UInt8) → Except Failure (Found α bytes)

/-- The byte of a character below U+0080. -/
def byteOf (character : Char) : UInt8 :=
  UInt8.ofNat character.toNat

/-- Whether a byte is a blank between the parts of a text. -/
def isBlank (byte : UInt8) : Bool :=
  byte = byteOf ' ' ∨ byte = byteOf '\n' ∨ byte = byteOf '\t' ∨ byte = byteOf '\r'

/-- The bytes behind leading blanks. -/
def skipBlanks (bytes : List UInt8) : List UInt8 :=
  bytes.dropWhile isBlank

theorem length_skipBlanks_le (bytes : List UInt8) :
    (skipBlanks bytes).length ≤ bytes.length :=
  (List.dropWhile_sublist _).length_le

/-- Reads behind leading blanks. -/
def behindBlanks {α : Type} (read : Reader α) (bytes : List UInt8) :
    Except Failure (Found α bytes) :=
  match read (skipBlanks bytes) with
  | .ok found => .ok (found.extend (length_skipBlanks_le bytes))
  | .error failure => .error failure

end LabelPress.Json
