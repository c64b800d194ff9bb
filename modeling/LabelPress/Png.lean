import LabelPress.Deflate.Zlib
import LabelPress.Png.Expansion
import LabelPress.Png.Interlace

/-!
# PNG files

`encode` writes a picture without compression; `decode` reads any PNG file and `dimensions` the
sides of its picture.
-/

namespace LabelPress.Png

/-- A reason for which a picture cannot be written. -/
inductive EncodeError where
  /-- A side is zero. -/
  | noPixels (width height : Nat)
  /-- The picture has another number of bytes than it needs. -/
  | byteCount (expected found : Nat)
  /-- The writer breaks off, because it was handed a picture that is not well formed. -/
  | brokenOff
  deriving DecidableEq, Repr

/-- The text of an error. -/
def EncodeError.message : EncodeError → String
  | noPixels width height =>
    "Invalid dimensions: width (" ++ toString width ++ ") and height (" ++ toString height ++
      ") must be non-zero"
  | byteCount expected found =>
    "Invalid pixel data: expected " ++ toString expected ++ " bytes, got " ++ toString found
  | brokenOff => "the writer broke off"

/-- A reason for which bytes cannot be read as a picture. -/
inductive DecodeError where
  /-- The signature is missing. -/
  | noSignature
  /-- The file is cut off or damaged. -/
  | damaged
  deriving DecidableEq, Repr

/-- The text of an error. -/
def DecodeError.message : DecodeError → String
  | noSignature => "Invalid or unsupported image format"
  | damaged => "Corrupted or incomplete image"

/-- The head of the file of a picture. -/
def headerOf (picture : Picture) : Header where
  width := picture.width
  height := picture.height
  depth := 8 * picture.format.depth.bytes
  color :=
    match picture.format.channels with
    | .grey => .grey
    | .greyAlpha => .greyAlpha
    | .rgb => .rgb
    | .rgba => .rgba
  interlaced := false

/-- The bytes of a row, the high byte of a sample first. -/
def storedRow (picture : Picture) (row : Nat) : List UInt8 :=
  let size := picture.width * picture.format.pixelBytes
  (List.range size).map fun place =>
    let stored := match picture.format.depth with
      | .eight => place
      | .sixteen => if place % 2 = 0 then place + 1 else place - 1
    picture.bytes.getD (row * size + stored) 0

/-- All rows of a picture, each behind the number of the plain filter. -/
def storedRows (picture : Picture) : List UInt8 :=
  (List.range picture.height).flatMap fun row => 0 :: storedRow picture row

/-- The chunks of the file of a picture. -/
def chunksOf (picture : Picture) : List Chunk :=
  [⟨Chunk.header, (headerOf picture).bytes⟩,
    ⟨Chunk.pixels, Zlib.compress (storedRows picture)⟩, ⟨Chunk.closing, []⟩]

/-- The file of a picture that is well formed and has pixels. -/
def file (picture : Picture) : List UInt8 :=
  signature ++ (chunksOf picture).flatMap Chunk.bytes

/-- The number of bytes that a picture needs, counted with 64 bits. -/
def neededBytes (picture : Picture) : Nat :=
  picture.byteCount % 0x10000000000000000

/-- The writer: it relies on a picture with all its bytes, and breaks off on any other. -/
def write (picture : Picture) : Except EncodeError (List UInt8) :=
  if picture.WellFormed then .ok (file picture) else .error .brokenOff

/-- The file of a picture, if it can be written. -/
def encode (picture : Picture) : Except EncodeError (List UInt8) :=
  if picture.width = 0 ∨ picture.height = 0 then
    .error (.noPixels picture.width picture.height)
  else if picture.bytes.size ≠ neededBytes picture then
    .error (.byteCount (neededBytes picture) picture.bytes.size)
  else write picture

/-- The greatest number of bytes of a picture that is read. -/
def maxBytes : Nat := 512 * 1024 * 1024

/-- Reads a file up to its pixels; a row of the picture may not have more than `maxBytes`. -/
def opening? (bytes : List UInt8) : Option Opening := do
  let opening ← Opening.read? bytes
  let { header, preface, .. } := opening
  guard (header.width * (Expansion.format header preface.colors).pixelBytes ≤ maxBytes)
  return opening

/-- The picture of stored rows. -/
def pictureOf (header : Header) (colors : Colors) (layers : List Layer) : Picture :=
  let format := Expansion.format header colors
  .ofFn header.width header.height format fun x y place =>
    let number := place / format.depth.bytes
    let sample := Expansion.sample header colors (Layer.sample header layers x y) number
    UInt8.ofNat (sample / Nat.pow 256 (place % format.depth.bytes))

/-- Reads the pixels behind the opening of a file. -/
def picture? (opening : Opening) : Option Picture := do
  let { header, preface, .. } := opening
  let colors := preface.colors
  guard (header.color ≠ .indexed ∨ colors.palette.isSome)
  guard (header.width * header.height * (Expansion.format header colors).pixelBytes ≤ maxBytes)
  let parts ← opening.parts?
  let stored ← Zlib.decompress? (storedBytes header) parts
  let layers ← Layer.read? header (Pass.ofHeader header) stored.toList
  return pictureOf header colors layers

/-- The bytes behind the signature. -/
def body (bytes : List UInt8) : Except DecodeError (List UInt8) :=
  if signature.isPrefixOf bytes then .ok (bytes.drop signature.length) else .error .noSignature

/-- The picture in a file. -/
def decode (bytes : List UInt8) : Except DecodeError Picture := do
  let bytes ← body bytes
  match (opening? bytes).bind picture? with
  | some picture => .ok picture
  | none => .error .damaged

/-- The sides of the picture in a file, width first. -/
def dimensions (bytes : List UInt8) : Except DecodeError (Nat × Nat) := do
  let bytes ← body bytes
  match opening? bytes with
  | some opening => .ok (opening.header.width, opening.header.height)
  | none => .error .damaged

/-- Why a file cannot be turned. -/
inductive TurnError where
  | decode (error : DecodeError)
  | encode (error : EncodeError)
  deriving DecidableEq, Repr

/-- Turns the picture in a file; a file that is not turned stays as it is, whatever it holds. -/
def turn (turn : Turn) (bytes : List UInt8) : Except TurnError (List UInt8) :=
  if turn = .upright then .ok bytes
  else
    match decode bytes with
    | .error error => .error (.decode error)
    | .ok picture =>
      match encode (picture.turn turn) with
      | .error error => .error (.encode error)
      | .ok bytes => .ok bytes

end LabelPress.Png
