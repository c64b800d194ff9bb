import LabelPress.Canvas

/-!
# Shapes

Masks of boxes, ellipses and bitmaps.  A dot of a shape is ink if the middle of the dot is.  All
points of a box are multiples of a sixteenth of a dot, so that boxes are decided in whole numbers;
ellipses are decided in floating point.
-/

namespace LabelPress

/-- A rectangle with rounded corners; all lengths are in sixteenths of a dot. -/
structure RoundedRect where
  left : Int
  top : Int
  right : Int
  bottom : Int
  /-- The radius of the corners. -/
  radius : Int
  deriving DecidableEq, Repr

namespace RoundedRect

/-- The number of `low` to `high` that is nearest to a number. -/
def nearest (low high number : Int) : Int :=
  max low (min number high)

/--
Whether a point lies inside.  In the square of a corner the distance from the centre of its
rounding decides.
-/
def contains (rect : RoundedRect) (x y : Int) : Bool :=
  if x < rect.left ∨ rect.right < x ∨ y < rect.top ∨ rect.bottom < y then false
  else if rect.radius ≤ 0 then true
  else
    let dx := x - nearest (rect.left + rect.radius) (rect.right - rect.radius) x
    let dy := y - nearest (rect.top + rect.radius) (rect.bottom - rect.radius) y
    dx * dx + dy * dy ≤ rect.radius * rect.radius

end RoundedRect

namespace Shapes

/-- The middle of a dot, in sixteenths. -/
def middle (dot : Nat) : Int :=
  16 * dot + 8

/-- The radius of the corners of a box, in sixteenths: that many eighths of half a side. -/
def boxRadius (width height rounding : Nat) : Int :=
  min rounding 8 * min width height

/-- The outer edge of a box. -/
def boxOuter (width height rounding : Nat) : RoundedRect :=
  ⟨0, 0, 16 * width, 16 * height, boxRadius width height rounding⟩

/-- The inner edge of the outline of a box. -/
def boxInner (width height thickness rounding : Nat) : RoundedRect :=
  ⟨16 * thickness, 16 * thickness, 16 * width - 16 * thickness, 16 * height - 16 * thickness,
    max (boxRadius width height rounding - 16 * thickness) 0⟩

/-- Whether a dot belongs to the outline of a box. -/
def boxInk (width height thickness rounding x y : Nat) : Bool :=
  (boxOuter width height rounding).contains (middle x) (middle y) &&
    !(boxInner width height thickness rounding).contains (middle x) (middle y)

/-- The outline of a box; `rounding` is zero for square corners and eight for the roundest. -/
def box (width height thickness rounding : Nat) : Mask :=
  Mask.ofInk width height (boxInk width height thickness rounding)

/-- The square of a number. -/
def square (number : Float) : Float :=
  number * number

/-- Whether a dot belongs to the ring inside an ellipse. -/
def ellipseInk (width height thickness x y : Nat) : Bool :=
  let a := width.toFloat / 2
  let b := height.toFloat / 2
  let innerA := a - thickness.toFloat
  let innerB := b - thickness.toFloat
  let dx := x.toFloat + 0.5 - a
  let dy := y.toFloat + 0.5 - b
  let outer : Bool := square (dx / a) + square (dy / b) ≤ 1
  let inner : Bool :=
    0 < innerA && 0 < innerB && square (dx / innerA) + square (dy / innerB) < 1
  outer && !inner

/-- The outline of an ellipse; a circle is an ellipse with equal sides. -/
def ellipse (width height thickness : Nat) : Mask :=
  Mask.ofInk width height (ellipseInk width height thickness)

/-- Whether a bit of a bitmap is set; the most significant bit of a byte is the leftmost dot. -/
def bitmapInk (rowBytes : Nat) (data : Array UInt8) (x y : Nat) : Bool :=
  (data.getD (y * rowBytes + x / 8) 0).toNat.testBit (7 - x % 8)

/-- A bitmap. -/
def bitmap (rowBytes rows : Nat) (data : Array UInt8) : Mask :=
  Mask.ofInk (8 * rowBytes) rows (bitmapInk rowBytes data)

end Shapes

end LabelPress
