import LabelPress.Png.Chunk

/-!
# The head of a PNG picture

The head gives the sides, the size of a sample in bits, the meaning of the samples, and whether
the pixels stand in the order of their rows or in seven passes.
-/

namespace LabelPress.Png

/-- What the stored samples of a pixel stand for. -/
inductive ColorType where
  | grey
  | rgb
  /-- A place in the palette. -/
  | indexed
  | greyAlpha
  | rgba
  deriving DecidableEq, Repr

namespace ColorType

/-- The colour type with a number. -/
def ofNat? : Nat → Option ColorType
  | 0 => some grey
  | 2 => some rgb
  | 3 => some indexed
  | 4 => some greyAlpha
  | 6 => some rgba
  | _ => none

/-- The number of a colour type. -/
def toNat : ColorType → Nat
  | grey => 0
  | rgb => 2
  | indexed => 3
  | greyAlpha => 4
  | rgba => 6

/-- The number of stored samples of a pixel. -/
def samples : ColorType → Nat
  | grey | indexed => 1
  | greyAlpha => 2
  | rgb => 3
  | rgba => 4

/-- The sizes that samples may have, in bits. -/
def depths : ColorType → List Nat
  | grey => [1, 2, 4, 8, 16]
  | indexed => [1, 2, 4, 8]
  | rgb | greyAlpha | rgba => [8, 16]

end ColorType

/-- The head of a picture. -/
structure Header where
  /-- The number of columns. -/
  width : Nat
  /-- The number of rows. -/
  height : Nat
  /-- The size of a sample in bits. -/
  depth : Nat
  /-- What the samples stand for. -/
  color : ColorType
  /-- The pixels stand in seven passes. -/
  interlaced : Bool
  deriving DecidableEq, Repr

namespace Header

/-- The data of the chunk of a head. -/
def bytes (header : Header) : List UInt8 :=
  BigEndian.bytes 4 header.width ++ BigEndian.bytes 4 header.height ++
    [UInt8.ofNat header.depth, UInt8.ofNat header.color.toNat, 0, 0,
      if header.interlaced then 1 else 0]

/-- The head in the data of a chunk. -/
def ofBytes? (data : List UInt8) : Option Header :=
  match data.drop 8 with
  | [depth, color, method, filter, order] => do
    let color ← ColorType.ofNat? color.toNat
    let header : Header := {
      width := BigEndian.number (data.take 4)
      height := BigEndian.number ((data.drop 4).take 4)
      depth := depth.toNat
      color
      interlaced := order == 1
    }
    guard (header.depth ∈ color.depths ∧ method = 0 ∧ filter = 0 ∧ order ≤ 1 ∧
      0 < header.width ∧ 0 < header.height)
    return header
  | _ => none

/-- The number of bits of a pixel. -/
def pixelBits (header : Header) : Nat :=
  header.color.samples * header.depth

/-- The number of bytes in which `width` pixels are stored. -/
def rowBytes (header : Header) (width : Nat) : Nat :=
  (width * header.pixelBits + 7) / 8

end Header

end LabelPress.Png
