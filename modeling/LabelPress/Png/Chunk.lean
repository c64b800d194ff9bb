import LabelPress.BigEndian

/-!
# Chunks

A PNG file is a signature and a sequence of chunks: the length of the data, the kind of the chunk
in four letters, the data, and a check value of kind and data.
-/

namespace LabelPress.Png

/-- The bytes with which every file begins. -/
def signature : List UInt8 := [0x89, 0x50, 0x4E, 0x47, 0x0D, 0x0A, 0x1A, 0x0A]

/-- The remainder after one more bit. -/
def checkBit (remainder : UInt32) : UInt32 :=
  if remainder &&& 1 = 1 then (remainder >>> 1) ^^^ 0xEDB88320 else remainder >>> 1

/-- The remainder after eight more bits, for each byte. -/
def checkTable : Array UInt32 :=
  Array.ofFn fun byte : Fin 256 =>
    (List.range 8).foldl (fun remainder _ => checkBit remainder) byte.val.toUInt32

/-- The remainder after one more byte. -/
def checkByte (remainder : UInt32) (byte : UInt8) : UInt32 :=
  checkTable.getD ((remainder ^^^ byte.toUInt32) &&& 0xFF).toNat 0 ^^^ (remainder >>> 8)

/-- The check value of bytes. -/
def checkValue (bytes : List UInt8) : Nat :=
  (bytes.foldl checkByte 0xFFFFFFFF ^^^ 0xFFFFFFFF).toNat

/-- A part of a file. -/
structure Chunk where
  /-- Its kind, in four letters. -/
  kind : List UInt8
  /-- Its data. -/
  data : List UInt8
  deriving DecidableEq, Repr

namespace Chunk

/-- The kind that four letters name. -/
def kindOf (letters : String) : List UInt8 :=
  letters.toList.map fun letter => UInt8.ofNat letter.toNat

/-- The kind of the head of a picture. -/
def header : List UInt8 := kindOf "IHDR"

/-- The kind of a palette. -/
def palette : List UInt8 := kindOf "PLTE"

/-- The kind of what is transparent. -/
def transparency : List UInt8 := kindOf "tRNS"

/-- The kind of a background colour. -/
def background : List UInt8 := kindOf "bKGD"

/-- The kind of the numbers that name a colour space. -/
def colorSpace : List UInt8 := kindOf "cICP"

/-- The kind of what announces a frame of an animation. -/
def frame : List UInt8 := kindOf "fcTL"

/-- The kind of a part of the pixels. -/
def pixels : List UInt8 := kindOf "IDAT"

/-- The kind of a part of the pixels of a frame. -/
def framePixels : List UInt8 := kindOf "fdAT"

/-- The kind of the end of a file. -/
def closing : List UInt8 := kindOf "IEND"

/-- The least and the greatest number of bytes that chunks of some kinds may hold. -/
def sizes : List (List UInt8 × Nat × Nat) :=
  [(header, 13, 13), (palette, 3, 768), (transparency, 1, 256), (background, 1, 6),
    (colorSpace, 4, 4), (frame, 26, 26)]

/-- Whether a chunk of a kind may hold `length` bytes. -/
def admits (kind : List UInt8) (length : Nat) : Bool :=
  match sizes.lookup kind with
  | none => true
  | some (least, greatest) => least ≤ length ∧ length ≤ greatest

/-- A picture can be shown without the chunks whose kind begins with a small letter. -/
def isAncillary (kind : List UInt8) : Bool :=
  (kind.headD 0).toNat.testBit 5

/-- The bytes of a chunk. -/
def bytes (chunk : Chunk) : List UInt8 :=
  BigEndian.bytes 4 chunk.data.length ++ chunk.kind ++ chunk.data ++
    BigEndian.bytes 4 (checkValue (chunk.kind ++ chunk.data))

/-- The kind of the chunk with which bytes begin, as far as its data. -/
def kind? (bytes : List UInt8) : Option (List UInt8) :=
  if 8 ≤ bytes.length then some ((bytes.drop 4).take 4) else none

/-- A chunk that has been read. -/
structure Found where
  /-- The chunk. -/
  chunk : Chunk
  /-- Whether its check value is right. -/
  sound : Bool
  /-- The bytes behind it. -/
  rest : List UInt8
  deriving DecidableEq, Repr

/-- The chunk with which bytes begin. -/
def next? (bytes : List UInt8) : Option Found :=
  let length := BigEndian.number (bytes.take 4)
  if bytes.length < length + 12 then none
  else
    let chunk : Chunk := ⟨(bytes.drop 4).take 4, (bytes.drop 8).take length⟩
    let rest := bytes.drop (8 + length)
    some {
      chunk
      sound := BigEndian.number (rest.take 4) = checkValue (chunk.kind ++ chunk.data)
      rest := rest.drop 4
    }

theorem length_rest_of_next? {bytes : List UInt8} {found : Found}
    (read : next? bytes = some found) : found.rest.length < bytes.length := by
  unfold next? at read
  dsimp only at read
  split at read
  · simp at read
  · simp only [Option.some.injEq] at read
    subst read
    simp only [List.length_drop]
    omega

/--
The data of a chunk of pixels; one of a frame begins with its number among all chunks of frames.
-/
def pixelData? (number : Nat) (chunk : Chunk) : Option (List UInt8) :=
  if chunk.kind = pixels then some chunk.data
  else if 4 ≤ chunk.data.length ∧ BigEndian.number (chunk.data.take 4) = number then
    some (chunk.data.drop 4)
  else none

/--
The data of the chunks of one kind of pixels that stand together, up to the kind of another chunk.
-/
def pixelParts? (kind : List UInt8) (number : Nat) (reversed : List (List UInt8))
    (bytes : List UInt8) : Option (List (List UInt8)) :=
  match kind? bytes with
  | none => none
  | some next =>
    if next = kind then
      match _found : next? bytes with
      | none => none
      | some found =>
        match pixelData? number found.chunk with
        | none => none
        | some data =>
          if found.sound then pixelParts? kind (number + 1) (data :: reversed) found.rest else none
    else some reversed.reverse
termination_by bytes.length
decreasing_by exact length_rest_of_next? _found

end Chunk

end LabelPress.Png
