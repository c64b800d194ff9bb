import LabelPress.Canvas

/-!
# Cells of grids

A turn carries the places of a grid to those of the turned one, and back again
(`Turn.destination_bounds`, `Turn.source_bounds`).  Two grids are equal if they have the same sides
and the same cells (`Grid.eq_of_cell?`).  The cells of blank and turned grids are known here, as is
what painting a mask does to every dot of a canvas (`Mask.cell?_paintOnto`): a dot that the mask
covers is painted, and every other one is left alone.
-/

namespace LabelPress

namespace Turn

/-- A place counted from the other end of a side lies on that side, and counts back to itself. -/
theorem mirror_bounds {size place : Nat} (inside : place < size) :
    size - 1 - place < size ∧ size - 1 - (size - 1 - place) = place := by
  omega

/-- A cell lands inside the turned grid, and comes from where it was. -/
theorem destination_bounds (turn : Turn) {width height x y : Nat} (column : x < width)
    (row : y < height) :
    ((turn.destination width height x y).1 < (turn.sides width height).1 ∧
      (turn.destination width height x y).2 < (turn.sides width height).2) ∧
      turn.source width height (turn.destination width height x y).1
        (turn.destination width height x y).2 = (x, y) := by
  have columns := mirror_bounds column
  have rows := mirror_bounds row
  cases turn with
  | upright =>
      exact ⟨⟨column, row⟩, rfl⟩
  | left =>
      exact ⟨⟨row, columns.1⟩, Prod.ext columns.2 rfl⟩
  | half =>
      exact ⟨⟨columns.1, rows.1⟩, Prod.ext columns.2 rows.2⟩
  | right =>
      exact ⟨⟨rows.1, column⟩, Prod.ext rfl rows.2⟩

/-- What lands on a place of the turned grid lies inside the grid. -/
theorem source_bounds (turn : Turn) {width height x y : Nat}
    (column : x < (turn.sides width height).1) (row : y < (turn.sides width height).2) :
    ((turn.source width height x y).1 < width ∧ (turn.source width height x y).2 < height) ∧
      turn.destination width height (turn.source width height x y).1
        (turn.source width height x y).2 = (x, y) := by
  have columns := mirror_bounds column
  have rows := mirror_bounds row
  cases turn with
  | upright =>
      exact ⟨⟨column, row⟩, rfl⟩
  | left =>
      exact ⟨⟨rows.1, column⟩, Prod.ext rfl rows.2⟩
  | half =>
      exact ⟨⟨columns.1, rows.1⟩, Prod.ext columns.2 rows.2⟩
  | right =>
      exact ⟨⟨row, columns.1⟩, Prod.ext columns.2 rfl⟩

end Turn

namespace Grid

universe u

variable {α : Type u}

/-- Row and column of a place, from its number in the order of rows. -/
theorem index_div_mod {width x : Nat} (columnLt : x < width) (y : Nat) :
    (y * width + x) / width = y ∧ (y * width + x) % width = x := by
  have widthPos : 0 < width := Nat.zero_lt_of_lt columnLt
  constructor
  · rw [Nat.mul_comm, Nat.mul_add_div widthPos, Nat.div_eq_of_lt columnLt, Nat.add_zero]
  · rw [Nat.add_comm, Nat.add_mul_mod_self_right, Nat.mod_eq_of_lt columnLt]

/-- Outside the grid there is no cell. -/
theorem cell?_eq_none_iff (grid : Grid α) (x y : Nat) :
    grid.cell? x y = none ↔ ¬ (x < grid.width ∧ y < grid.height) := by
  rw [← grid.isSome_cell?_iff, Bool.not_eq_true, Option.isSome_eq_false_iff,
    Option.isNone_iff_eq_none]

/-- Inside the grid there is one. -/
theorem exists_cell? {grid : Grid α} {x y : Nat} (column : x < grid.width)
    (row : y < grid.height) :
    ∃ cell, grid.cell? x y = some cell :=
  Option.isSome_iff_exists.mp ((grid.isSome_cell?_iff x y).mpr ⟨column, row⟩)

theorem cellD_eq (grid : Grid α) (x y : Nat) (outside : α) :
    grid.cellD x y outside = (grid.cell? x y).getD outside := by
  unfold cellD cell?
  split
  · rw [Array.getD_eq_getD_getElem?]
  · rfl

/-- The cell at a place in the order of rows. -/
theorem getElem?_cells (grid : Grid α) {index : Nat} (inside : index < grid.cells.size) :
    grid.cells[index]? = grid.cell? (index % grid.width) (index / grid.width) := by
  rw [grid.size_cells] at inside
  have widthPos : 0 < grid.width := Nat.pos_of_mul_pos_right (Nat.zero_lt_of_lt inside)
  rw [cell?, if_pos (Nat.mod_lt _ widthPos), Nat.mul_comm, Nat.div_add_mod]

/-- A grid is known by its sides and its cells. -/
theorem eq_of_cell? {first second : Grid α} (width : first.width = second.width)
    (height : first.height = second.height)
    (cells : ∀ x y, x < second.width → y < second.height → first.cell? x y = second.cell? x y) :
    first = second := by
  have sizes : first.cells.size = second.cells.size := by
    rw [first.size_cells, second.size_cells, width, height]
  have same : first.cells = second.cells := by
    apply Array.ext_getElem?
    intro index
    by_cases inside : index < second.cells.size
    · rw [getElem?_cells first (sizes ▸ inside), getElem?_cells second inside, width]
      have bound := inside
      rw [second.size_cells] at bound
      have widthPos : 0 < second.width := Nat.pos_of_mul_pos_right (Nat.zero_lt_of_lt bound)
      exact cells _ _ (Nat.mod_lt _ widthPos) (Nat.div_lt_of_lt_mul bound)
    · rw [Array.getElem?_eq_none (by omega), Array.getElem?_eq_none (by omega)]
  cases first
  cases second
  cases width
  cases height
  cases same
  rfl

theorem cell?_replicate {width height x y : Nat} (cell : α) (column : x < width)
    (row : y < height) :
    (replicate width height cell).cell? x y = some cell := by
  have inside := index_lt column row
  simp [cell?, replicate, column, inside]

theorem width_turn (turn : Turn) (grid : Grid α) :
    (grid.turn turn).width = (turn.sides grid.width grid.height).1 := by
  cases turn <;> rfl

theorem height_turn (turn : Turn) (grid : Grid α) :
    (grid.turn turn).height = (turn.sides grid.width grid.height).2 := by
  cases turn <;> rfl

/-- A cell of a turned grid is the cell that lands on its place. -/
theorem cell?_turn (turn : Turn) (grid : Grid α) {x y : Nat}
    (column : x < (turn.sides grid.width grid.height).1)
    (row : y < (turn.sides grid.width grid.height).2) :
    (grid.turn turn).cell? x y =
      grid.cell? (turn.source grid.width grid.height x y).1
        (turn.source grid.width grid.height x y).2 := by
  have mirror : ∀ size place : Nat, size - 1 - place = size - (place + 1) := by
    intro size place
    rw [Nat.sub_sub, Nat.add_comm]
  cases turn with
  | upright =>
      rfl
  | left =>
      have spot := cell?_ofFn grid.height grid.width (fun x y => grid.get y.rev x)
        ⟨x, column⟩ ⟨y, row⟩
      rw [← cell?_eq_some_get] at spot
      simp only [Turn.source, mirror]
      exact spot
  | half =>
      have spot := cell?_ofFn grid.width grid.height (fun x y => grid.get x.rev y.rev)
        ⟨x, column⟩ ⟨y, row⟩
      rw [← cell?_eq_some_get] at spot
      simp only [Turn.source, mirror]
      exact spot
  | right =>
      have spot := cell?_ofFn grid.height grid.width (fun x y => grid.get y x.rev)
        ⟨x, column⟩ ⟨y, row⟩
      rw [← cell?_eq_some_get] at spot
      simp only [Turn.source, mirror]
      exact spot

end Grid

namespace Mask

/--
Whether a mask with its top left corner at `(left, top)` covers the dot at column `x` and row `y`
by half or more.
-/
def covers (mask : Mask) (left top : Int) (x y : Nat) : Bool :=
  0 ≤ x - left ∧ x - left < mask.width ∧ 0 ≤ y - top ∧ y - top < mask.height ∧
    128 ≤ mask.cellD (x - left).toNat (y - top).toNat 0

/-- A mask whose ink is known has full coverage there and none elsewhere. -/
theorem cell?_ofInk {width height x y : Nat} (ink : Nat → Nat → Bool) (column : x < width)
    (row : y < height) :
    (ofInk width height ink).cell? x y = some (if ink x y then fullInk else 0) :=
  Grid.cell?_ofFn width height (fun x y => if ink x y then fullInk else 0) ⟨x, column⟩ ⟨y, row⟩

/-- A mask covers exactly its ink. -/
theorem covers_ofInk_iff {width height : Nat} (ink : Nat → Nat → Bool) (left top : Int)
    (x y : Nat) :
    (ofInk width height ink).covers left top x y = true ↔
      0 ≤ x - left ∧ x - left < width ∧ 0 ≤ y - top ∧ y - top < height ∧
        ink (x - left).toNat (y - top).toNat = true := by
  rw [covers, decide_eq_true_eq]
  show 0 ≤ x - left ∧ x - left < width ∧ 0 ≤ y - top ∧ y - top < height ∧ _ ↔ _
  refine and_congr_right fun leftLe => and_congr_right fun right => and_congr_right fun topLe =>
    and_congr_right fun bottom => ?_
  rw [Grid.cellD_eq, cell?_ofInk ink (by omega) (by omega), Option.getD_some]
  cases ink (x - left).toNat (y - top).toNat <;> decide

/-- A filled rectangle is ink, and every other dot stays as it is. -/
theorem cell?_fillRect (mask : Mask) (left top width height x y : Nat) :
    (mask.fillRect left top width height).cell? x y =
      if left ≤ x ∧ x < left + width ∧ top ≤ y ∧ y < top + height then
        (mask.cell? x y).map fun _ => fullInk
      else mask.cell? x y :=
  Grid.cell?_updateRect mask left top width height _ x y

/-- Where a mask is merged into another one more coverage wins, and every other dot stays. -/
theorem cell?_overlay (mask merged : Mask) (left top x y : Nat) :
    (mask.overlay merged left top).cell? x y =
      if left ≤ x ∧ x < left + merged.width ∧ top ≤ y ∧ y < top + merged.height then
        (mask.cell? x y).map (max · (merged.cellD (x - left) (y - top) 0))
      else mask.cell? x y :=
  Grid.cell?_updateRect mask left top merged.width merged.height _ x y

@[simp]
theorem width_paintOnto (mask : Mask) (canvas : Canvas) (left top : Int) (paint : Paint) :
    (mask.paintOnto canvas left top paint).width = canvas.width := rfl

@[simp]
theorem height_paintOnto (mask : Mask) (canvas : Canvas) (left top : Int) (paint : Paint) :
    (mask.paintOnto canvas left top paint).height = canvas.height := rfl

/-- A dot that the mask covers is painted once, and every other dot stays as it is. -/
theorem cell?_paintOnto (mask : Mask) (canvas : Canvas) (left top : Int) (paint : Paint)
    (x y : Nat) :
    (mask.paintOnto canvas left top paint).cell? x y =
      (canvas.cell? x y).map fun dot =>
        if mask.covers left top x y then paint.apply dot else dot := by
  rw [paintOnto, Grid.cell?_updateRect]
  by_cases within : 0 ≤ x - left ∧ x - left < mask.width ∧ 0 ≤ y - top ∧ y - top < mask.height
  · have column : (-left).toNat + (x - left.toNat) = (x - left).toNat := by omega
    have row : (-top).toNat + (y - top.toNat) = (y - top).toNat := by omega
    have covered : mask.covers left top x y =
        decide (inkThreshold ≤ mask.cellD (x - left).toNat (y - top).toNat 0) := by
      rw [covers]
      obtain ⟨leftLe, right, topLe, bottom⟩ := within
      simp only [leftLe, right, topLe, bottom, true_and]
      rfl
    rw [if_pos (by omega), column, row, covered]
    simp only [decide_eq_true_eq]
  · have uncovered : mask.covers left top x y = false := by
      rw [covers, decide_eq_false_iff_not]
      rintro ⟨leftLe, right, topLe, bottom, -⟩
      exact within ⟨leftLe, right, topLe, bottom⟩
    rw [if_neg (by omega), uncovered]
    simp

end Mask

end LabelPress
