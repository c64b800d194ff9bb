import LabelPress.Picture
import LabelPress.Png.Opening

/-!
# Expansion of stored samples

Stored samples become the samples of a picture: places in a palette become colours, small samples
are scaled to a byte, and a note on what is transparent becomes a sample of its own.
-/

namespace LabelPress.Png.Expansion

/-- Whether the pixels of a picture get an opacity from a note. -/
def isNoted (colors : Colors) : Bool :=
  colors.transparency.isSome

/-- The format of the pixels of a picture. -/
def format (header : Header) (colors : Colors) : PixelFormat where
  channels :=
    match header.color with
    | .grey => if isNoted colors then .greyAlpha else .grey
    | .rgb | .indexed => if isNoted colors then .rgba else .rgb
    | .greyAlpha => .greyAlpha
    | .rgba => .rgba
  depth := if header.depth = 16 then .sixteen else .eight

/-- The greatest sample of a picture. -/
def fullSample (header : Header) : Nat :=
  if header.depth = 16 then 65535 else 255

/--
Whether a note names the pixel with these stored samples as transparent.  Wide samples have to be
all of the note; narrow ones stand in the lower one of two bytes each, and more may follow.
-/
def isTransparent (header : Header) (note : List UInt8) (stored : List Nat) : Bool :=
  if header.depth = 16 then stored.flatMap (BigEndian.bytes 2) = note
  else
    stored = (List.range header.color.samples).map fun number =>
      (note.getD (2 * number + 1) 0).toNat

/-- The opacity of a pixel with these stored samples. -/
def opacity (header : Header) (colors : Colors) (stored : List Nat) : Nat :=
  if isTransparent header (colors.transparency.getD []) stored then 0 else fullSample header

/-- The red, green, blue and opacity of a place in the palette; black stands outside of it. -/
def paletteColor (colors : Colors) (place : Nat) : List Nat :=
  let palette := colors.palette.getD []
  let alphas := colors.transparency.getD []
  let known := if alphas.length ≤ palette.length / 3 then alphas else []
  let part (number : Nat) : Nat :=
    if place < palette.length / 3 then (palette.getD (3 * place + number) 0).toNat else 0
  let alpha := if place < palette.length / 3 then (known.getD place 255).toNat else 255
  [part 0, part 1, part 2, alpha]

/-- A sample with the number `number` of a pixel with these stored samples. -/
def sample (header : Header) (colors : Colors) (stored : Nat → Nat) (number : Nat) : Nat :=
  match header.color with
  | .indexed => (paletteColor colors (stored 0)).getD number 0
  | .greyAlpha | .rgba => stored number
  | .grey | .rgb =>
    if number < header.color.samples then
      if header.depth < 8 then stored number * (255 / (Nat.pow 2 header.depth - 1))
      else stored number
    else opacity header colors ((List.range header.color.samples).map stored)

end LabelPress.Png.Expansion
