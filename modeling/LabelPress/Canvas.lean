import LabelPress.Grid
import LabelPress.Label

/-!
# Canvases and masks

A canvas holds a byte for every dot, 0 for black and 255 for white.  A field is first rendered
upright into a mask, which holds for every dot how far it is covered, from 0 to 255.  The mask is
turned and then painted onto the canvas.  Only whole dots are printed: what is covered by half or
more counts as ink.
-/

namespace LabelPress

/-- The byte of a white dot. -/
def white : UInt8 := 255

/-- The byte of a black dot. -/
def black : UInt8 := 0

/-- The coverage of a dot that is ink altogether. -/
def fullInk : UInt8 := 255

/-- The least coverage that counts as ink. -/
def inkThreshold : UInt8 := 128

/-- How far each dot of a field is covered. -/
abbrev Mask := Grid UInt8

/-- The dots of a label. -/
abbrev Canvas := Grid UInt8

/-- How a mask changes the dots that it covers. -/
inductive Paint where
  | black
  | white
  /-- Every covered dot changes its colour. -/
  | reverse
  deriving DecidableEq, Repr

/-- The dot that a paint makes of a dot. -/
def Paint.apply : Paint → UInt8 → UInt8
  | black, _ => LabelPress.black
  | white, _ => LabelPress.white
  | reverse, dot => LabelPress.white - dot

/-- An upright field. -/
structure Stamp where
  /-- The coverage of its dots. -/
  mask : Mask
  /-- The row to which a baseline origin refers. -/
  baseline : Nat
  deriving Repr

/-- A field whose baseline is its lower edge. -/
def Stamp.onBottom (mask : Mask) : Stamp :=
  ⟨mask, mask.height⟩

/-- A side of a field: at least one dot, and no more than `maxDots`. -/
def clampSide (dots : Int) : Nat :=
  (max 1 (min dots maxDots)).toNat

namespace Canvas

/-- A canvas on which nothing is printed. -/
def blank (width height : Nat) : Canvas :=
  Grid.replicate width height white

end Canvas

namespace Mask

/-- A mask that covers nothing. -/
def blank (width height : Nat) : Mask :=
  Grid.replicate width height 0

/-- A mask whose ink is given by a predicate on column and row. -/
def ofInk (width height : Nat) (ink : Nat → Nat → Bool) : Mask :=
  Grid.ofFn width height fun x y => if ink x y then fullInk else 0

/-- Covers a rectangle; the part of it outside the mask is left out. -/
def fillRect (mask : Mask) (x y width height : Nat) : Mask :=
  mask.updateRect x y width height fun _ _ _ => fullInk

/-- Merges a mask into another one with its top left corner at `(x, y)`; more coverage wins. -/
def overlay (mask merged : Mask) (x y : Nat) : Mask :=
  mask.updateRect x y merged.width merged.height fun column row coverage =>
    max coverage (merged.cellD column row 0)

/-- Paints the mask onto a canvas with its top left corner at `(x, y)`, which may lie outside. -/
def paintOnto (mask : Mask) (canvas : Canvas) (x y : Int) (paint : Paint) : Canvas :=
  let hiddenColumns := (-x).toNat
  let hiddenRows := (-y).toNat
  canvas.updateRect x.toNat y.toNat (mask.width - hiddenColumns) (mask.height - hiddenRows)
    fun column row dot =>
      if inkThreshold ≤ mask.cellD (hiddenColumns + column) (hiddenRows + row) 0 then
        paint.apply dot
      else dot

end Mask

/--
Where the top left corner of a turned field stands on the canvas.  An origin at the top left
corner is that place itself; an origin on the baseline is where the left end of the baseline
stands after the turn.
-/
def Stamp.position (stamp : Stamp) (turn : Turn) (origin : Origin) : Int × Int :=
  match origin.anchor with
  | .topLeft => (origin.x, origin.y)
  | .baseline =>
    let foot := turn.point stamp.mask.width stamp.mask.height 0 stamp.baseline
    (origin.x - foot.1, origin.y - foot.2)

end LabelPress
