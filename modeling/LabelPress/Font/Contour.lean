/-!
# Contours

A glyph is drawn inside closed contours.  The points of a contour stand on the curve or off it; an
off point bends the curve between its neighbours, and between two off points the curve passes
through their middle.  Coordinates are in halves of a font unit, so that these middles are whole.
-/

namespace LabelPress.Font

/-- A place in halves of a font unit, with the vertical axis upwards. -/
structure Place where
  x : Int
  y : Int
  deriving DecidableEq, Repr

/-- The middle of two places that have whole font units. -/
def Place.middle (first second : Place) : Place :=
  ⟨(first.x + second.x) / 2, (first.y + second.y) / 2⟩

/-- A point of a contour. -/
structure ContourPoint where
  place : Place
  /-- Whether the curve passes through the point. -/
  onCurve : Bool
  deriving DecidableEq, Repr

/-- A part of a contour. -/
inductive Curve (α : Type) where
  | line (start finish : α)
  /-- A quadratic curve, bent towards `control`. -/
  | quadratic (start control finish : α)
  deriving DecidableEq, Repr

/-- The curve between the images of its points. -/
def Curve.map {α β : Type} (image : α → β) : Curve α → Curve β
  | line start finish => line (image start) (image finish)
  | quadratic start control finish => quadratic (image start) (image control) (image finish)

/-- The points that span a curve. -/
def Curve.points {α : Type} : Curve α → List α
  | line start finish => [start, finish]
  | quadratic start control finish => [start, control, finish]

/-- A contour that is being traced. -/
structure Tracing where
  /-- Where the contour closes. -/
  start : Place
  /-- An off point before the start. -/
  leading : Option Place
  /-- The end of the last curve. -/
  current : Place
  /-- An off point behind the last curve. -/
  pending : Option Place
  /-- The curves so far. -/
  curves : Array (Curve Place)

namespace Tracing

/-- Follows the contour to its next point. -/
def step (tracing : Tracing) (point : ContourPoint) : Tracing :=
  match tracing.pending, point.onCurve with
  | some control, true =>
    { tracing with
      current := point.place, pending := none
      curves := tracing.curves.push (.quadratic tracing.current control point.place) }
  | some control, false =>
    let middle := control.middle point.place
    { tracing with
      current := middle, pending := some point.place
      curves := tracing.curves.push (.quadratic tracing.current control middle) }
  | none, true =>
    { tracing with
      current := point.place
      curves := tracing.curves.push (.line tracing.current point.place) }
  | none, false => { tracing with pending := some point.place }

/-- Closes a contour whose points break off, by a line from the end of the last curve. -/
def breakOff (tracing : Tracing) : Array (Curve Place) :=
  tracing.curves.push (.line tracing.current tracing.start)

/-- Closes the contour. -/
def close (tracing : Tracing) : Array (Curve Place) :=
  match tracing.leading, tracing.pending with
  | some leading, some pending =>
    let middle := pending.middle leading
    (tracing.curves.push (.quadratic tracing.current pending middle)).push
      (.quadratic middle leading tracing.start)
  | some control, none | none, some control =>
    tracing.curves.push (.quadratic tracing.current control tracing.start)
  | none, none => tracing.curves.push (.line tracing.current tracing.start)

end Tracing

/-- A contour, which begins at a place and returns to it. -/
structure Contour where
  start : Place
  curves : Array (Curve Place)
  deriving DecidableEq, Repr

/-- The contour through some points, all or the first; a single point off the curve makes none. -/
def Contour.ofPoints? (isWhole : Bool) (points : List ContourPoint) : Option Contour :=
  let trace (start : Place) (leading pending : Option Place) (rest : List ContourPoint) :=
    let tracing := rest.foldl Tracing.step ⟨start, leading, start, pending, #[]⟩
    some ⟨start, if isWhole then tracing.close else tracing.breakOff⟩
  match points with
  | [] => none
  | first :: rest =>
    if first.onCurve then trace first.place none none rest
    else
      match rest with
      | [] => none
      | second :: rest =>
        if second.onCurve then trace second.place (some first.place) none rest
        else trace (first.place.middle second.place) (some first.place) (some second.place) rest

/--
The numbers of points of contours whose last points have the given numbers.  Every contour has a
point, also where the numbers do not grow.
-/
def contourSizes : (ends : List Nat) → List Nat
  | [] => []
  | first :: rest =>
    (first + 1) :: List.zipWith (fun last previous => max 1 (last - previous)) rest (first :: rest)

/-- Cuts points into contours; the points of the last one may break off. -/
def contoursOf : (sizes : List Nat) → List ContourPoint → List Contour
  | [], _ => []
  | size :: sizes, points =>
    (Contour.ofPoints? (size ≤ points.length) (points.take size)).toList ++
      contoursOf sizes (points.drop size)

end LabelPress.Font
