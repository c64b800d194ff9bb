/-!
# Segments of QR data

Data are written in segments, each in one of four modes.  The bytes are first cut into runs of one
class.  Then neighbouring runs are merged, from the left, where one segment is not longer than two;
how long a segment is depends on the width of its length field, which grows with the size of the
symbol.
-/

namespace LabelPress.Qr

/-- How the characters of a segment are written. -/
inductive Mode where
  /-- Digits, three in ten bits. -/
  | numeric
  /-- Digits, upper case letters and some signs, two in eleven bits. -/
  | alphanumeric
  /-- Any byte in eight bits. -/
  | byte
  /-- Characters of two bytes in thirteen bits. -/
  | kanji
  deriving DecidableEq, Repr

namespace Mode

/-- The four bits that announce the mode. -/
def indicator : Mode → Nat
  | numeric => 1
  | alphanumeric => 2
  | byte => 4
  | kanji => 8

/-- The narrowest mode that holds what either of two modes holds. -/
def join : Mode → Mode → Mode
  | numeric, numeric => numeric
  | kanji, kanji => kanji
  | numeric, alphanumeric | alphanumeric, numeric | alphanumeric, alphanumeric => alphanumeric
  | _, _ => byte

/-- The bits that `count` characters take. -/
def dataBits (mode : Mode) (count : Nat) : Nat :=
  match mode with
  | numeric => (count * 10 + 2) / 3
  | alphanumeric => (count * 11 + 1) / 2
  | byte => count * 8
  | kanji => count * 13

/-- The number of characters in `bytes` bytes. -/
def characters (mode : Mode) (bytes : Nat) : Nat :=
  match mode with
  | kanji => bytes / 2
  | numeric | alphanumeric | byte => bytes

end Mode

/-- The three ranges of versions that share the widths of their length fields. -/
inductive VersionClass where
  /-- Versions 1 to 9. -/
  | small
  /-- Versions 10 to 26. -/
  | medium
  /-- Versions 27 to 40. -/
  | large
  deriving DecidableEq, Repr

namespace VersionClass

/-- The class of a version. -/
def ofVersion (version : Nat) : VersionClass :=
  if version ≤ 9 then small else if version ≤ 26 then medium else large

/-- The largest version of a class. -/
def last : VersionClass → Nat
  | small => 9
  | medium => 26
  | large => 40

/-- The width of the length field. -/
def lengthBits : VersionClass → Mode → Nat
  | small, .numeric => 10
  | small, .alphanumeric => 9
  | small, .byte => 8
  | small, .kanji => 8
  | medium, .numeric => 12
  | medium, .alphanumeric => 11
  | medium, .byte => 16
  | medium, .kanji => 10
  | large, .numeric => 14
  | large, .alphanumeric => 13
  | large, .byte => 16
  | large, .kanji => 12

end VersionClass

/-- Bytes that are written in one mode. -/
structure Segment where
  mode : Mode
  bytes : List Nat
  deriving DecidableEq, Repr

namespace Segment

/-- The bits that a segment takes: the mode, the length field and the characters. -/
def size (versions : VersionClass) (segment : Segment) : Nat :=
  4 + versions.lengthBits segment.mode +
    segment.mode.dataBits (segment.mode.characters segment.bytes.length)

/-- Two neighbouring segments as one. -/
def merge (first second : Segment) : Segment :=
  ⟨first.mode.join second.mode, first.bytes ++ second.bytes⟩

/-- Whether a byte is a digit. -/
def isDigit (byte : Nat) : Bool :=
  0x30 ≤ byte && byte ≤ 0x39

/-- The signs that alphanumeric mode holds, with their codes. -/
def signCodes : List (Nat × Nat) :=
  [(0x20, 36), (0x24, 37), (0x25, 38), (0x2A, 39), (0x2B, 40), (0x2D, 41), (0x2E, 42),
   (0x2F, 43), (0x3A, 44)]

/-- Whether a byte is a letter or sign that alphanumeric mode holds. -/
def isLetter (byte : Nat) : Bool :=
  (0x41 ≤ byte && byte ≤ 0x5A) || (signCodes.lookup byte).isSome

/-- Whether two bytes look like a character of two bytes. -/
def isPair (first second : Nat) : Bool :=
  let low := 0x40 ≤ second && second ≠ 0x7F
  ((0x81 ≤ first && first ≤ 0x9F) || (0xE0 ≤ first && first ≤ 0xEA)) && low && second ≤ 0xFC ||
    first = 0xEB && low && second ≤ 0xBF

/-- The mode of the first bytes of a text, how many of them there are, and what stands behind. -/
def classify (byte : Nat) (rest : List Nat) : Segment × List Nat :=
  match rest with
  | second :: behind =>
    if isPair byte second then (⟨.kanji, [byte, second]⟩, behind)
    else if isDigit byte then (⟨.numeric, [byte]⟩, rest)
    else if isLetter byte then (⟨.alphanumeric, [byte]⟩, rest)
    else (⟨.byte, [byte]⟩, rest)
  | [] =>
    if isDigit byte then (⟨.numeric, [byte]⟩, [])
    else if isLetter byte then (⟨.alphanumeric, [byte]⟩, [])
    else (⟨.byte, [byte]⟩, [])

theorem classify_length_le (byte : Nat) (rest : List Nat) :
    (classify byte rest).2.length ≤ rest.length := by
  unfold classify
  split
  · split
    · simp
    · split
      · simp
      · split <;> simp
  · split
    · simp
    · split <;> simp

/-- The bytes of data one by one, or two by two, each with its mode. -/
def atoms : List Nat → List Segment
  | [] => []
  | byte :: rest => (classify byte rest).1 :: atoms (classify byte rest).2
termination_by bytes => bytes.length
decreasing_by
  have := classify_length_le byte rest
  simp only [List.length_cons]
  omega

/-- The runs of neighbouring segments of one mode. -/
def runs (segments : List Segment) : List Segment :=
  segments.foldr
    (fun segment found =>
      match found with
      | next :: behind =>
        if segment.mode = next.mode then ⟨segment.mode, segment.bytes ++ next.bytes⟩ :: behind
        else segment :: found
      | [] => [segment])
    []

/-- Merges `current` with the segments behind it where that takes no more bits. -/
def mergeFrom (versions : VersionClass) (current : Segment) : List Segment → List Segment
  | [] => [current]
  | next :: rest =>
    if (current.merge next).size versions ≤ current.size versions + next.size versions then
      mergeFrom versions (current.merge next) rest
    else current :: mergeFrom versions next rest

/-- The segments in which data are written in a symbol of the given class. -/
def plan (versions : VersionClass) (bytes : List Nat) : List Segment :=
  match runs (atoms bytes) with
  | [] => []
  | first :: rest => mergeFrom versions first rest

end Segment

/-- The bits of a number, the most significant first. -/
def bits (width number : Nat) : List Bool :=
  (List.range width).map fun index => number.testBit (width - 1 - index)

namespace Segment

/-- The number that digits stand for. -/
def decimal (digits : List Nat) : Nat :=
  digits.foldl (fun number digit => 10 * number + (digit - 0x30)) 0

/-- The bits of digits, taken by threes. -/
def numericBits : List Nat → List Bool
  | first :: second :: third :: rest =>
    bits 10 (decimal [first, second, third]) ++ numericBits rest
  | [first, second] => bits 7 (decimal [first, second])
  | [first] => bits 4 (decimal [first])
  | [] => []

/-- The code of a character of alphanumeric mode. -/
def alphanumericCode (byte : Nat) : Nat :=
  if isDigit byte then byte - 0x30
  else if 0x41 ≤ byte ∧ byte ≤ 0x5A then byte - 0x41 + 10
  else (signCodes.lookup byte).getD 0

/-- The bits of alphanumeric characters, taken by twos. -/
def alphanumericBits : List Nat → List Bool
  | first :: second :: rest =>
    bits 11 (45 * alphanumericCode first + alphanumericCode second) ++ alphanumericBits rest
  | [first] => bits 6 (alphanumericCode first)
  | [] => []

/-- The bits of characters of two bytes. -/
def kanjiBits : List Nat → List Bool
  | first :: second :: rest =>
    let code := 256 * first + second
    let offset := if code < 0xE040 then code - 0x8140 else code - 0xC140
    bits 13 (0xC0 * (offset / 256) + offset % 256) ++ kanjiBits rest
  | _ => []

/-- The bits of the characters of a segment. -/
def contentBits (segment : Segment) : List Bool :=
  match segment.mode with
  | .numeric => numericBits segment.bytes
  | .alphanumeric => alphanumericBits segment.bytes
  | .byte => segment.bytes.flatMap (bits 8)
  | .kanji => kanjiBits segment.bytes

/-- The bits of a segment. -/
def toBits (versions : VersionClass) (segment : Segment) : List Bool :=
  bits 4 segment.mode.indicator ++
    bits (versions.lengthBits segment.mode) (segment.mode.characters segment.bytes.length) ++
    segment.contentBits

end Segment

end LabelPress.Qr
