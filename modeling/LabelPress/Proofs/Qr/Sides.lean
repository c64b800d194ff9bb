import LabelPress.Symbology.Qr.Symbol

/-!
# Sides of QR symbols

A symbol is drawn onto a square of empty modules, and no step of drawing changes the sides of that
square.  So a symbol has as many columns as rows, and no more than the 177 of the largest version
(`isSquare_of_encode?`).
-/

namespace LabelPress.Qr

universe u

/-- A grid has as many columns as rows. -/
def IsSquare {α : Type u} (size : Nat) (grid : Grid α) : Prop :=
  grid.width = size ∧ grid.height = size

namespace IsSquare

variable {size : Nat} {cells : Grid Cell}

theorem place (square : IsSquare size cells) (x y : Nat) (dark : Bool) :
    IsSquare size (place cells x y dark) :=
  square

theorem foldl {Item : Type} {draw : Grid Cell → Item → Grid Cell}
    (each : ∀ {cells : Grid Cell}, IsSquare size cells → ∀ item, IsSquare size (draw cells item))
    (square : IsSquare size cells) (items : List Item) :
    IsSquare size (items.foldl draw cells) :=
  List.foldlRecOn items draw square fun _ drawn item _ => each drawn item

theorem drawSquares (square : IsSquare size cells) (x y : Int) (reach : Nat) (isDark : Nat → Bool) :
    IsSquare size (drawSquares x y reach isDark cells) := by
  refine square.foldl ?_ _
  intro cells square dy
  refine square.foldl ?_ _
  intro cells square dx
  split
  · exact square.place _ _ _
  · exact square

theorem drawFinder (square : IsSquare size cells) (x y : Nat) :
    IsSquare size (drawFinder cells x y) :=
  square.drawSquares _ _ _ _

theorem drawAlignment (square : IsSquare size cells) (x y : Nat) :
    IsSquare size (drawAlignment cells x y) := by
  unfold Qr.drawAlignment
  split
  · exact square.drawSquares _ _ _ _
  · exact square

theorem drawBits (square : IsSquare size cells) (value : Nat)
    (places : List (Nat × List (Nat × Nat))) : IsSquare size (drawBits value places cells) := by
  refine square.foldl ?_ _
  intro cells square entry
  refine square.foldl ?_ _
  intro cells square spot
  exact square.place _ _ _

theorem drawFormat (square : IsSquare size cells) (level : QrLevel) (mask : Nat) :
    IsSquare size (drawFormat level mask cells) :=
  (square.drawBits _ _).place _ _ _

theorem placeBits (square : IsSquare size cells) (spots : List (Nat × Nat)) (bits : List Bool) :
    IsSquare size (placeBits cells spots bits) := by
  fun_induction Qr.placeBits cells spots bits with
  | case1 => exact square
  | case2 cells bits x y spots empty ih => exact ih square
  | case3 cells bits x y spots taken ih => exact ih square

theorem masked (square : IsSquare size cells) (level : QrLevel) (mask : Nat) :
    IsSquare size (masked level cells mask) :=
  square.drawFormat level mask

end IsSquare

theorem isSquare_frame (level : QrLevel) (version : Nat) :
    IsSquare (side version) (frame level version) := by
  have empty : IsSquare (side version) (Grid.replicate (side version) (side version) Cell.empty) :=
    ⟨rfl, rfl⟩
  have finders := ((empty.drawFinder 3 3).drawFinder (side version - 4) 3).drawFinder
    3 (side version - 4)
  refine IsSquare.drawFormat ?_ level 0
  split
  · exact finders.foldl (fun square spot => square.drawAlignment spot.1 spot.2) _
  · refine IsSquare.drawBits ?_ _ _
    exact finders.foldl (fun square spot => square.drawAlignment spot.1 spot.2) _

theorem isSquare_best {size : Nat} {first : Grid Bool} {others : List (Grid Bool)}
    (firstSquare : IsSquare size first) (othersSquare : ∀ other ∈ others, IsSquare size other) :
    IsSquare size (best first others) := by
  refine List.foldlRecOn (motive := fun found : Grid Bool × Nat => IsSquare size found.1) others _
    firstSquare ?_
  intro found foundSquare modules member
  dsimp only
  split
  · exact othersSquare modules member
  · exact foundSquare

theorem isSquare_symbol (level : QrLevel) (version : Nat) (words : List Nat) :
    IsSquare (side version) (symbol level version words) := by
  have placed := (isSquare_frame level version).placeBits (path (side version))
    (words.flatMap (bits 8))
  refine isSquare_best (placed.masked level 0) ?_
  intro other member
  rcases List.mem_map.mp member with ⟨mask, -, rfl⟩
  exact placed.masked level mask

theorem le_of_smallestFrom {level : QrLevel} {length first count version : Nat}
    (found : smallestFrom level length first count = some version) : version < first + count := by
  induction count generalizing first with
  | zero =>
      cases found
  | succ count ih =>
      rw [smallestFrom] at found
      split at found
      · cases found
        omega
      · have := ih found
        omega

theorem version_le_of_choose? {level : QrLevel} {bytes : List Nat}
    {choice : Nat × List Segment} (found : choose? level bytes = some choice) : choice.1 ≤ 40 := by
  rcases List.exists_of_findSome?_eq_some found with ⟨versions, -, fits⟩
  unfold fit? at fits
  dsimp only at fits
  split at fits
  · rcases Option.map_eq_some_iff.mp fits with ⟨version, smallest, rfl⟩
    have := le_of_smallestFrom smallest
    show version ≤ 40
    omega
  · cases fits

/-- A symbol is a square of no more than 177 modules on a side. -/
theorem isSquare_of_encode? {data : List UInt8} {level : QrLevel} {modules : Grid Bool}
    (encoded : encode? data level = some modules) :
    ∃ size, 0 < size ∧ size ≤ 177 ∧ IsSquare size modules := by
  rcases Option.map_eq_some_iff.mp encoded with ⟨⟨version, segments⟩, chosen, rfl⟩
  have largest : version ≤ 40 := version_le_of_choose? chosen
  refine ⟨side version, ?_, ?_, isSquare_symbol _ _ _⟩
  · exact Nat.lt_of_lt_of_le (by decide) (Nat.le_add_left 17 _)
  · unfold side
    omega

end LabelPress.Qr
