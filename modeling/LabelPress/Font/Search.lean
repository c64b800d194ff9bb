/-!
# Search by halves

An entry of a table is searched for by comparing the wanted one with an entry in the middle and
going on in one half.  Tables are meant to be in order; in one that is not, the search still looks
at the same places and may miss what is there.
-/

namespace LabelPress.Font.Search

/--
Narrows `size` places from `base` on to one.  `order` tells how the entry at a place compares with
the wanted one; the half that begins with the middle is kept unless its first entry is greater.
-/
def narrow? (order : Nat → Option Ordering) (base size : Nat) : Option Nat :=
  if size ≤ 1 then some base
  else
    match order (base + size / 2) with
    | none => none
    | some found => narrow? order (if found = .gt then base else base + size / 2) (size - size / 2)
termination_by size

/-- The place of the wanted entry among the first `size`. -/
def place? (order : Nat → Option Ordering) (size : Nat) : Option Nat :=
  if size = 0 then none
  else
    match narrow? order 0 size with
    | none => none
    | some place => if order place = some .eq then some place else none

/-- The first middle between `start` and `stop` whose entry is the wanted one. -/
def middle? (order : Nat → Option Ordering) (start stop : Nat) : Option Nat :=
  if start < stop then
    match order ((start + stop) / 2) with
    | none => none
    | some .eq => some ((start + stop) / 2)
    | some .gt => middle? order start ((start + stop) / 2)
    | some .lt => middle? order ((start + stop) / 2 + 1) stop
  else none
termination_by stop - start

end LabelPress.Font.Search
