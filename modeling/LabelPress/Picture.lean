import LabelPress.Canvas

/-!
# Pictures

A picture is a rectangle of pixels in one of eight formats: grey or colour, with or without
transparency, with samples of one or two bytes.  The samples of a pixel stand side by side, and
pixels stand row by row.  A picture is well formed if it has as many bytes as its sides and its
format ask for; turning keeps that.
-/

namespace LabelPress

/-- What the samples of a pixel stand for. -/
inductive Channels where
  | grey
  | greyAlpha
  | rgb
  | rgba
  deriving DecidableEq, Repr

/-- The number of samples of a pixel. -/
def Channels.count : Channels → Nat
  | grey => 1
  | greyAlpha => 2
  | rgb => 3
  | rgba => 4

/-- The size of a sample. -/
inductive Depth where
  | eight
  | sixteen
  deriving DecidableEq, Repr

/-- The number of bytes of a sample. -/
def Depth.bytes : Depth → Nat
  | eight => 1
  | sixteen => 2

/-- The kind of the pixels of a picture. -/
structure PixelFormat where
  /-- What the samples stand for. -/
  channels : Channels
  /-- The size of a sample. -/
  depth : Depth
  deriving DecidableEq, Repr

/-- The number of bytes of a pixel. -/
def PixelFormat.pixelBytes (format : PixelFormat) : Nat :=
  format.channels.count * format.depth.bytes

theorem PixelFormat.pixelBytes_pos (format : PixelFormat) : 0 < format.pixelBytes := by
  obtain ⟨channels, depth⟩ := format
  cases channels <;> cases depth <;> decide

/-- A rectangle of pixels. -/
structure Picture where
  /-- The number of columns. -/
  width : Nat
  /-- The number of rows. -/
  height : Nat
  /-- The kind of the pixels. -/
  format : PixelFormat
  /-- The pixels, row by row; a sample of two bytes has its low byte first. -/
  bytes : Array UInt8
  deriving DecidableEq, Repr

namespace Picture

/-- The number of bytes that the sides and the format ask for. -/
def byteCount (picture : Picture) : Nat :=
  picture.width * picture.height * picture.format.pixelBytes

/-- Every pixel is complete. -/
def WellFormed (picture : Picture) : Prop :=
  picture.bytes.size = picture.byteCount

instance (picture : Picture) : Decidable picture.WellFormed :=
  inferInstanceAs (Decidable (_ = _))

/-- The picture of a canvas. -/
def ofCanvas (canvas : Canvas) : Picture where
  width := canvas.width
  height := canvas.height
  format := ⟨.grey, .eight⟩
  bytes := canvas.cells

theorem wellFormed_ofCanvas (canvas : Canvas) : (ofCanvas canvas).WellFormed := by
  have size := canvas.size_cells
  simp [WellFormed, ofCanvas, byteCount, PixelFormat.pixelBytes, Channels.count, Depth.bytes, size]

/-- The byte `sample` of the pixel at column `x` and row `y`. -/
def byte (picture : Picture) (x y sample : Nat) : UInt8 :=
  picture.bytes.getD ((y * picture.width + x) * picture.format.pixelBytes + sample) 0

/-- The bytes of the pixel at column `x` and row `y`. -/
def pixel (picture : Picture) (x y : Nat) : List UInt8 :=
  (List.range picture.format.pixelBytes).map (picture.byte x y)

/-- The picture of a format whose bytes are given by a function of column, row and place. -/
def ofFn (width height : Nat) (format : PixelFormat) (byte : Nat → Nat → Nat → UInt8) :
    Picture where
  width
  height
  format
  bytes := Array.ofFn fun index : Fin (width * height * format.pixelBytes) =>
    let pixel := index.val / format.pixelBytes
    byte (pixel % width) (pixel / width) (index.val % format.pixelBytes)

theorem wellFormed_ofFn (width height : Nat) (format : PixelFormat)
    (byte : Nat → Nat → Nat → UInt8) : (ofFn width height format byte).WellFormed := by
  simp [WellFormed, ofFn, byteCount]

/-- The picture after a turn. -/
def turn (turn : Turn) (picture : Picture) : Picture :=
  match turn with
  | .upright => picture
  | .left | .half | .right =>
    let (width, height) := turn.sides picture.width picture.height
    ofFn width height picture.format fun x y sample =>
      let (sourceX, sourceY) := turn.source picture.width picture.height x y
      picture.byte sourceX sourceY sample

@[simp]
theorem turn_upright (picture : Picture) : picture.turn .upright = picture := rfl

/-- A turned picture has all its pixels. -/
theorem WellFormed.turn {picture : Picture} (wellFormed : picture.WellFormed) (turn : Turn) :
    (picture.turn turn).WellFormed := by
  cases turn
  case upright => exact wellFormed
  all_goals exact wellFormed_ofFn _ _ _ _

end Picture

end LabelPress
