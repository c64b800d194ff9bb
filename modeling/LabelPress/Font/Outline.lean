import LabelPress.Font.Contour
import LabelPress.Font.Spot
import LabelPress.Font.Table

/-!
# Outlines of glyphs

A glyph is described point by point, or put together from other glyphs that are turned, stretched
and shifted.  The outline is made of the curves of all its contours, in font units; a glyph whose
curves enclose nothing has none.
-/

namespace LabelPress.Font

/--
The flags of `count` points from an offset on, and the offset behind them; before them, the flag
`last` stands for `repeats` of these points.
-/
def flagsFrom? (table : Table) (last repeats offset : Nat) : (count : Nat) →
    Option (List Nat × Nat)
  | 0 => if repeats = 0 then some ([], offset) else none
  | count + 1 => do
    if repeats = 0 then
      let flag ← table.byte? offset
      let repeats ← if flag.testBit 3 then table.byte? (offset + 1) else some 0
      let behind := if flag.testBit 3 then offset + 2 else offset + 1
      let (rest, behind) ← flagsFrom? table flag repeats behind count
      return (flag :: rest, behind)
    else
      let (rest, behind) ← flagsFrom? table last (repeats - 1) offset count
      return (last :: rest, behind)

/-- The flags of `count` points from an offset on, and the offset behind them. -/
def flags? (table : Table) (offset count : Nat) : Option (List Nat × Nat) :=
  flagsFrom? table 0 0 offset count

/-- A coordinate moved by a distance; coordinates have two bytes and wrap around. -/
def moved (coordinate distance : Int) : Int :=
  Table.signed ((coordinate + distance) % 65536).toNat

/--
The coordinates along one axis, from an offset on, and the offset behind them.  Each is given by
its distance from `last`; the bits say whether it is short, and whether it is positive or absent.
-/
def coordinates? (table : Table) (shortBit sameBit offset : Nat) (last : Int) :
    List Nat → Option (List Int × Nat)
  | [] => some ([], offset)
  | flag :: flags => do
    if flag.testBit shortBit then
      let distance ← table.byte? offset
      let next := moved last (if flag.testBit sameBit then distance else -distance)
      let (rest, behind) ← coordinates? table shortBit sameBit (offset + 1) next flags
      return (next :: rest, behind)
    else if flag.testBit sameBit then
      let (rest, behind) ← coordinates? table shortBit sameBit offset last flags
      return (last :: rest, behind)
    else
      let distance ← table.short? offset
      let next := moved last distance
      let (rest, behind) ← coordinates? table shortBit sameBit (offset + 2) next flags
      return (next :: rest, behind)

/-- The contours of a glyph that is described point by point. -/
def contours? (glyph : Table) (count : Nat) : Option (List Contour) := do
  let ends ← (List.range count).mapM fun index => glyph.word? (10 + 2 * index)
  let total := ends.getLastD 0 + 1
  guard (total < 65536)
  if total = 1 then return []
  else
    let instructions ← glyph.word? (10 + 2 * count)
    let (flags, xStart) ← flags? glyph (12 + 2 * count + instructions) total
    let (xs, yStart) ← coordinates? glyph 1 4 xStart 0 flags
    let (ys, _) ← coordinates? glyph 2 5 yStart 0 flags
    let points := (flags.zip (xs.zip ys)).map fun point =>
      ContourPoint.mk ⟨2 * point.2.1, 2 * point.2.2⟩ (point.1.testBit 0)
    return contoursOf (contourSizes ends) points

/-- A glyph as a part of another one. -/
structure Component where
  /-- The number of the glyph. -/
  glyph : Nat
  /-- How it is put into place. -/
  motion : Motion

namespace Component

/-- The fraction that a number of two bytes stands for. -/
def fraction? (table : Table) (offset : Nat) : Option Float32 :=
  (table.short? offset).map fun number => Float32.ofInt number / 16384

/-- The number with a sign in the byte at an offset. -/
def signedByte? (table : Table) (offset : Nat) : Option Int :=
  (table.byte? offset).map fun byte => if byte < 128 then byte else (byte : Int) - 256

/-- The shift that stands at an offset, and the offset behind it. -/
def shift? (table : Table) (flags offset : Nat) : Option (Spot × Nat) := do
  if flags.testBit 1 then
    if flags.testBit 0 then
      let x ← table.short? offset
      let y ← table.short? (offset + 2)
      return (⟨Float32.ofInt x, Float32.ofInt y⟩, offset + 4)
    else
      let x ← signedByte? table offset
      let y ← signedByte? table (offset + 1)
      return (⟨Float32.ofInt x, Float32.ofInt y⟩, offset + 2)
  else return (⟨0, 0⟩, offset)

/-- The directions of the axes that stand at an offset, and the offset behind them. -/
def axes? (table : Table) (flags offset : Nat) : Option ((Spot × Spot) × Nat) := do
  if flags.testBit 7 then
    let acrossX ← fraction? table offset
    let acrossY ← fraction? table (offset + 2)
    let upX ← fraction? table (offset + 4)
    let upY ← fraction? table (offset + 6)
    return ((⟨acrossX, acrossY⟩, ⟨upX, upY⟩), offset + 8)
  else if flags.testBit 6 then
    let across ← fraction? table offset
    let up ← fraction? table (offset + 2)
    return ((⟨across, 0⟩, ⟨0, up⟩), offset + 4)
  else if flags.testBit 3 then
    let scale ← fraction? table offset
    return ((⟨scale, 0⟩, ⟨0, scale⟩), offset + 2)
  else return ((⟨1, 0⟩, ⟨0, 1⟩), offset)

/-- The component that stands at an offset, and the offset of the next one. -/
def read? (table : Table) (offset : Nat) : Option (Component × Option Nat) := do
  let flags ← table.word? offset
  let glyph ← table.word? (offset + 2)
  let (origin, behind) ← shift? table flags (offset + 4)
  let ((across, up), behind) ← axes? table flags behind
  return (⟨glyph, ⟨across, up, origin⟩⟩, if flags.testBit 5 then some behind else none)

/-- The components from an offset on, at most `left` of them. -/
def listFrom (table : Table) : (left : Nat) → (offset : Option Nat) → List Component
  | 0, _ | _, none => []
  | left + 1, some offset =>
    match read? table offset with
    | none => []
    | some (component, next) => component :: listFrom table left next

end Component

/-- The curves that have been drawn, and the corners of the rectangle around them. -/
structure Drawn where
  curves : Array (Curve Spot) := #[]
  corners : Option (Spot × Spot) := none

namespace Drawn

/-- Takes a point into the rectangle. -/
def touch (drawn : Drawn) (spot : Spot) : Drawn :=
  { drawn with
    corners :=
      match drawn.corners with
      | none => some (spot, spot)
      | some (low, high) =>
        some (⟨min low.x spot.x, min low.y spot.y⟩, ⟨max high.x spot.x, max high.y spot.y⟩) }

/-- The point of a place. -/
def spotOf (place : Place) : Spot :=
  ⟨Float32.ofInt place.x / 2, Float32.ofInt place.y / 2⟩

/-- Draws a contour that is moved. -/
def draw (drawn : Drawn) (motion : Motion) (contour : Contour) : Drawn :=
  let image (place : Place) : Spot := motion.apply (spotOf place)
  contour.curves.foldl
    (fun drawn curve =>
      let curve := curve.map image
      let drawn := curve.points.foldl touch drawn
      { drawn with curves := drawn.curves.push curve })
    (drawn.touch (image contour.start))

end Drawn

/-- The descriptions of the glyphs of a font. -/
structure GlyphStore where
  /-- The number of glyphs. -/
  count : Nat
  /-- The number of bytes of a place. -/
  placeSize : Nat
  /-- Where the descriptions begin, and where the last one ends. -/
  places : Table
  /-- The descriptions. -/
  descriptions : Table

namespace GlyphStore

/-- Where the description of a glyph begins. -/
def place? (store : GlyphStore) (glyph : Nat) : Option Nat :=
  if store.placeSize = 2 then (store.places.word? (2 * glyph)).map (2 * ·)
  else store.places.long? (4 * glyph)

/-- The description of a glyph. -/
def description? (store : GlyphStore) (glyph : Nat) : Option Table := do
  guard (glyph + 1 < min (min (store.count + 1) 65535) (store.places.size / store.placeSize))
  let start ← store.place? glyph
  let stop ← store.place? (glyph + 1)
  guard (start < stop)
  store.descriptions.slice? start stop

/-- Draws a glyph from its description; there are components inside of others `depth` deep. -/
def draw? (store : GlyphStore) : (depth : Nat) → Motion → Drawn → Table → Option Drawn
  | 0, _, _, _ => none
  | depth + 1, motion, drawn, description => do
    let count ← description.short? 0
    guard (10 ≤ description.size ∨ count = 0)
    if 0 < count then
      let contours ← contours? description count.toNat
      return contours.foldl (fun drawn contour => drawn.draw motion contour) drawn
    else if count < 0 then
      (Component.listFrom description description.size (some 10)).foldlM
        (fun drawn component =>
          match store.description? component.glyph with
          | none => some drawn
          | some description =>
            store.draw? depth (motion.after component.motion) drawn description)
        drawn
    else return drawn

/-- How deep components may stand inside of others. -/
def maxDepth : Nat := 32

end GlyphStore

/-- The rectangle, in font units, that holds an outline but for parts of units at its sides. -/
structure Bounds where
  left : Int
  bottom : Int
  right : Int
  top : Int
  deriving DecidableEq, Repr

/-- The whole part of a coordinate, if it is one of two bytes. -/
def coordinate? (number : Float32) : Option Int :=
  let whole := number.toInt32.toInt
  if -32768 ≤ whole ∧ whole < 32768 then some whole else none

/-- The bounds of the rectangle between two corners; none if it holds nothing. -/
def Bounds.ofCorners? (low high : Spot) : Option Bounds := do
  let bounds : Bounds := ⟨← coordinate? low.x, ← coordinate? low.y, ← coordinate? high.x,
    ← coordinate? high.y⟩
  guard (bounds.left < bounds.right ∧ bounds.bottom < bounds.top)
  return bounds

/-- The outline of a glyph. -/
structure Outline where
  curves : Array (Curve Spot)
  bounds : Bounds

/-- The outline of a glyph, if it has one. -/
def GlyphStore.outline? (store : GlyphStore) (glyph : Nat) : Option Outline := do
  let description ← store.description? glyph
  let drawn ← store.draw? GlyphStore.maxDepth .rest {} description
  let (low, high) ← drawn.corners
  return ⟨drawn.curves, ← Bounds.ofCorners? low high⟩

end LabelPress.Font
