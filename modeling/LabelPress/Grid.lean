import LabelPress.Turn

/-!
# Grids

Rectangles of cells, stored row by row from the top left corner.  A grid is looked at through
`cell?`; the operations are filling from a function, changing the cells of a rectangle, and
turning.  `cell?_ofFn` and `cell?_updateRect` say what the first two do to every cell.
-/

namespace LabelPress

universe u

/-- A rectangle of cells. -/
structure Grid (α : Type u) where
  /-- The number of columns. -/
  width : Nat
  /-- The number of rows. -/
  height : Nat
  /-- The cells, row by row. -/
  cells : Array α
  /-- Every row is complete. -/
  size_cells : cells.size = width * height
  deriving DecidableEq, Repr

namespace Grid

variable {α : Type u}

/-- The place of a cell in the row by row order lies inside the grid. -/
theorem index_lt {width height x y : Nat} (columnLt : x < width) (rowLt : y < height) :
    y * width + x < width * height := by
  have step : (y + 1) * width ≤ height * width := Nat.mul_le_mul_right width rowLt
  rw [Nat.succ_mul] at step
  rw [Nat.mul_comm width height]
  omega

/-- The cell at column `x` and row `y`. -/
def get (grid : Grid α) (x : Fin grid.width) (y : Fin grid.height) : α :=
  have := grid.size_cells ▸ index_lt x.isLt y.isLt
  grid.cells[y.val * grid.width + x.val]

/-- The cell at column `x` and row `y`, if there is one. -/
def cell? (grid : Grid α) (x y : Nat) : Option α :=
  if x < grid.width then grid.cells[y * grid.width + x]? else none

/-- The cell at column `x` and row `y`, or `outside` if there is none. -/
def cellD (grid : Grid α) (x y : Nat) (outside : α) : α :=
  if x < grid.width then grid.cells.getD (y * grid.width + x) outside else outside

/-- The grid whose cells are given by a function of column and row. -/
def ofFn (width height : Nat) (cell : Fin width → Fin height → α) : Grid α where
  width
  height
  cells := Array.ofFn fun index : Fin (width * height) =>
    have widthPos : 0 < width := Nat.pos_of_mul_pos_right (Nat.zero_lt_of_lt index.isLt)
    cell ⟨index.val % width, Nat.mod_lt _ widthPos⟩
      ⟨index.val / width, Nat.div_lt_of_lt_mul index.isLt⟩
  size_cells := Array.size_ofFn

/-- The grid whose cells all are the same. -/
def replicate (width height : Nat) (cell : α) : Grid α where
  width
  height
  cells := Array.replicate (width * height) cell
  size_cells := Array.size_replicate

/-- Changes `count` cells that stand side by side from `start` on; `change` gets their number. -/
def updateRun (change : Nat → α → α) (start : Nat) : (count : Nat) → Array α → Array α
  | 0, cells => cells
  | count + 1, cells =>
    updateRun change start count (cells.modify (start + count) (change count))

/-- Changes the first `count` cells of rows, each `width` cells long, from `start` on. -/
def updateRows (change : Nat → Nat → α → α) (width start count : Nat) :
    (rows : Nat) → Array α → Array α
  | 0, cells => cells
  | rows + 1, cells =>
    updateRows change width start count rows
      (updateRun (fun column => change column rows) (start + rows * width) count cells)

@[simp]
theorem size_updateRun (change : Nat → α → α) (start count : Nat) (cells : Array α) :
    (updateRun change start count cells).size = cells.size := by
  induction count generalizing cells with
  | zero => rfl
  | succ count ih => simp [updateRun, ih]

@[simp]
theorem size_updateRows (change : Nat → Nat → α → α) (width start count rows : Nat)
    (cells : Array α) :
    (updateRows change width start count rows cells).size = cells.size := by
  induction rows generalizing cells with
  | zero => rfl
  | succ rows ih => simp [updateRows, ih]

/--
Changes the cells of the rectangle with the top left corner `(x, y)`; the part of it outside the
grid is left out.  The change gets column and row inside the rectangle.
-/
def updateRect (grid : Grid α) (x y width height : Nat) (change : Nat → Nat → α → α) : Grid α where
  width := grid.width
  height := grid.height
  cells :=
    updateRows change grid.width (y * grid.width + x) (min width (grid.width - x))
      (min height (grid.height - y)) grid.cells
  size_cells := by rw [size_updateRows, grid.size_cells]

/-- The grid after a turn. -/
def turn (turn : Turn) (grid : Grid α) : Grid α :=
  match turn with
  | .upright => grid
  | .left => ofFn grid.height grid.width fun x y => grid.get y.rev x
  | .half => ofFn grid.width grid.height fun x y => grid.get x.rev y.rev
  | .right => ofFn grid.height grid.width fun x y => grid.get y x.rev

theorem cell?_eq_some_get (grid : Grid α) (x : Fin grid.width) (y : Fin grid.height) :
    grid.cell? x y = some (grid.get x y) := by
  have inside := grid.size_cells ▸ index_lt x.isLt y.isLt
  simp [cell?, get, inside]

/-- A cell is there exactly inside the rectangle. -/
theorem isSome_cell?_iff (grid : Grid α) (x y : Nat) :
    (grid.cell? x y).isSome ↔ x < grid.width ∧ y < grid.height := by
  unfold cell?
  split
  case isTrue columnLt =>
    rw [isSome_getElem?, grid.size_cells]
    constructor
    · intro inside
      refine ⟨columnLt, ?_⟩
      have : y * grid.width < height grid * grid.width := by
        rw [Nat.mul_comm grid.height]; omega
      exact Nat.lt_of_mul_lt_mul_right this
    · intro inside
      exact index_lt columnLt inside.2
  case isFalse columnGe => simp [columnGe]

/-- The cells of a grid that is given by a function are the values of that function. -/
theorem cell?_ofFn (width height : Nat) (cell : Fin width → Fin height → α)
    (x : Fin width) (y : Fin height) :
    (ofFn width height cell).cell? x y = some (cell x y) := by
  have inside := index_lt x.isLt y.isLt
  have column : (y.val * width + x.val) % width = x.val := by
    rw [Nat.add_comm, Nat.add_mul_mod_self_right, Nat.mod_eq_of_lt x.isLt]
  have row : (y.val * width + x.val) / width = y.val := by
    rw [Nat.add_comm, Nat.add_mul_div_right _ _ (Nat.zero_lt_of_lt x.isLt),
      Nat.div_eq_of_lt x.isLt, Nat.zero_add]
  simp [cell?, ofFn, inside, column, row]

theorem getElem?_updateRun (change : Nat → α → α) (start count : Nat) (cells : Array α)
    (index : Nat) :
    (updateRun change start count cells)[index]? =
      if start ≤ index ∧ index < start + count then
        cells[index]?.map (change (index - start))
      else cells[index]? := by
  induction count generalizing cells with
  | zero =>
    rw [if_neg (by omega)]
    rfl
  | succ count ih =>
    rw [updateRun, ih, Array.getElem?_modify]
    by_cases last : start + count = index
    · subst last
      simp
    · rw [if_neg last]
      by_cases inside : start ≤ index ∧ index < start + count
      · rw [if_pos inside, if_pos (by omega)]
      · rw [if_neg inside, if_neg (by omega)]

theorem getElem?_updateRows (change : Nat → Nat → α → α) {width count : Nat} (start rows : Nat)
    (cells : Array α) (countLe : count ≤ width) (widthPos : 0 < width) (index : Nat) :
    (updateRows change width start count rows cells)[index]? =
      if start ≤ index ∧ (index - start) % width < count ∧ (index - start) / width < rows then
        cells[index]?.map (change ((index - start) % width) ((index - start) / width))
      else cells[index]? := by
  induction rows generalizing cells with
  | zero => simp [updateRows]
  | succ rows ih =>
    rw [updateRows, ih, getElem?_updateRun]
    by_cases after : start ≤ index
    · obtain ⟨offset, rfl⟩ := Nat.exists_eq_add_of_le after
      simp only [Nat.add_sub_cancel_left, Nat.le_add_right, true_and]
      have division := Nat.div_add_mod offset width
      rw [Nat.mul_comm] at division
      have modLt := Nat.mod_lt offset widthPos
      by_cases row : offset / width = rows
      · have inRow :
            (start + rows * width ≤ start + offset ∧
                start + offset < start + rows * width + count) ↔ offset % width < count := by
          rw [row] at division
          omega
        have difference : start + offset - (start + rows * width) = offset % width := by
          rw [row] at division
          omega
        simp only [inRow, difference, row, Nat.lt_irrefl, and_false, if_false, Nat.lt_succ_self,
          and_true]
      · have notInRow :
            ¬(start + rows * width ≤ start + offset ∧
                start + offset < start + rows * width + count) := by
          intro within
          apply row
          refine Nat.div_eq_of_lt_le ?_ ?_
          · omega
          · rw [Nat.succ_mul]; omega
        rw [if_neg notInRow]
        have rowIff : offset / width < rows + 1 ↔ offset / width < rows := by omega
        simp only [rowIff]
    · rw [if_neg (by omega), if_neg (by omega), if_neg (by omega)]

/-- Inside the rectangle a cell is changed, outside of it nothing happens. -/
theorem cell?_updateRect (grid : Grid α) (left top width height : Nat)
    (change : Nat → Nat → α → α) (x y : Nat) :
    (grid.updateRect left top width height change).cell? x y =
      if left ≤ x ∧ x < left + width ∧ top ≤ y ∧ y < top + height then
        (grid.cell? x y).map (change (x - left) (y - top))
      else grid.cell? x y := by
  unfold cell?
  by_cases columnLt : x < grid.width
  case neg => simp [updateRect, columnLt]
  simp only [updateRect, columnLt, if_true]
  by_cases leftLt : left < grid.width
  case neg =>
    have none : min width (grid.width - left) = 0 := by omega
    rw [getElem?_updateRows _ _ _ _ (by omega) (by omega), none, if_neg (by omega),
      if_neg (by omega)]
  rw [getElem?_updateRows _ _ _ _ (by omega) (by omega)]
  by_cases rowLt : y < grid.height
  case neg =>
    have outside : grid.cells.size ≤ y * grid.width + x := by
      rw [grid.size_cells, Nat.mul_comm grid.width]
      exact Nat.le_add_right_of_le (Nat.mul_le_mul_right _ (by omega))
    simp [Array.getElem?_eq_none outside]
  by_cases below : top ≤ y
  · obtain ⟨rows, rfl⟩ := Nat.exists_eq_add_of_le below
    rw [Nat.add_mul]
    by_cases right : left ≤ x
    · have difference :
          top * grid.width + rows * grid.width + x - (top * grid.width + left) =
            x - left + rows * grid.width := by
        omega
      rw [difference, Nat.add_mul_mod_self_right, Nat.add_mul_div_right _ _ (by omega),
        Nat.mod_eq_of_lt (by omega), Nat.div_eq_of_lt (by omega)]
      simp only [Nat.zero_add, Nat.add_sub_cancel_left]
      by_cases within : x < left + width ∧ rows < height
      · rw [if_pos (by omega), if_pos (by omega)]
      · rw [if_neg (by omega), if_neg (by omega)]
    · rw [if_neg, if_neg (by omega)]
      rintro ⟨after, remainder, -⟩
      obtain ⟨earlier, rfl⟩ : ∃ earlier, rows = earlier + 1 := by
        refine ⟨rows - 1, ?_⟩
        rcases rows with _ | rows
        · omega
        · rfl
      have difference :
          top * grid.width + (earlier + 1) * grid.width + x - (top * grid.width + left) =
            grid.width + x - left + earlier * grid.width := by
        rw [Nat.succ_mul]
        omega
      rw [difference, Nat.add_mul_mod_self_right, Nat.mod_eq_of_lt (by omega)] at remainder
      omega
  · rw [if_neg, if_neg (by omega)]
    rintro ⟨after, -, -⟩
    have above : (y + 1) * grid.width ≤ top * grid.width :=
      Nat.mul_le_mul_right _ (by omega)
    rw [Nat.succ_mul] at above
    omega

end Grid

end LabelPress
