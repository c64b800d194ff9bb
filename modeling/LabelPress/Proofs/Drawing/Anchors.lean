import LabelPress.Drawing
import LabelPress.Proofs.Drawing.CheckedCanvas
import Mathlib.Data.Set.Image
import Mathlib.Tactic.Ring

/-!
# Fields that are turned about their anchor

A field is turned in two ways: its cells are moved (`Turn.destination`), and the left end of its
baseline, which is a point between cells, is moved with them (`Turn.point`).  Cells and points
belong together: the square of a cell is carried onto the square of the place where the cell lands
(`Turn.image_point_square`).

So a field with its origin on the baseline is turned about that origin.  The main statement
(`press_turns_about_anchor`) says where each of its cells is painted.  This place is known from
where the cell stands beside the left end of the baseline (`Turn.around`); how large the field is
does not matter.  A field with its origin at the top left corner has this corner there, however it
is turned.
-/

namespace LabelPress

namespace Turn

/-! ## Cells and points -/

/--
Where a cell lands, seen from the point about which it is turned.  The cell stands `dx` columns to
the right of the point and `dy` rows below it; it stands to the left or above if they are negative.
-/
def around (turn : Turn) (dx dy : Int) : Int × Int :=
  match turn with
  | upright => (dx, dy)
  | left => (dy, -1 - dx)
  | half => (-1 - dx, -1 - dy)
  | right => (-1 - dy, dx)

/-- A cell lands where it is seen from the place of a point that is turned with it. -/
theorem destination_eq_point_add_around
    (turn : Turn)
    {width height x y : Nat}
    (column : x < width)
    (row : y < height)
    (pointX pointY : Int) :
    ((turn.destination width height x y).1 : Int) =
        (turn.point width height pointX pointY).1 + (turn.around (x - pointX) (y - pointY)).1 ∧
      ((turn.destination width height x y).2 : Int) =
        (turn.point width height pointX pointY).2 + (turn.around (x - pointX) (y - pointY)).2 := by
  cases turn <;> simp only [destination, point, around] <;> omega

/-- The point that lands on `(x, y)`. -/
def pointSource (turn : Turn) (width height x y : Int) : Int × Int :=
  match turn with
  | upright => (x, y)
  | left => (width - y, x)
  | half => (width - x, height - y)
  | right => (y, height - x)

@[simp]
theorem point_pointSource (turn : Turn) (width height x y : Int) :
    turn.point width height (turn.pointSource width height x y).1
      (turn.pointSource width height x y).2 = (x, y) := by
  cases turn <;> simp [point, pointSource]

@[simp]
theorem pointSource_point (turn : Turn) (width height x y : Int) :
    turn.pointSource width height (turn.point width height x y).1
      (turn.point width height x y).2 = (x, y) := by
  cases turn <;> simp [point, pointSource]

/-- The points of a rectangle, with its edges. -/
def rectangle (left top right bottom : Int) : Set (Int × Int) :=
  {spot | left ≤ spot.1 ∧ spot.1 ≤ right ∧ top ≤ spot.2 ∧ spot.2 ≤ bottom}

/-- A rectangle of points is carried onto a rectangle of points. -/
theorem image_point_rectangle
    (turn : Turn)
    (width height left top right bottom : Int) :
    (fun spot : Int × Int => turn.point width height spot.1 spot.2) ''
        rectangle left top right bottom =
      match turn with
      | .upright => rectangle left top right bottom
      | .left => rectangle top (width - right) bottom (width - left)
      | .half => rectangle (width - right) (height - bottom) (width - left) (height - top)
      | .right => rectangle (height - bottom) left (height - top) right := by
  rw [Set.image_eq_preimage_of_inverse
    (g := fun spot : Int × Int => turn.pointSource width height spot.1 spot.2)
    (fun spot => turn.pointSource_point width height spot.1 spot.2)
    (fun spot => turn.point_pointSource width height spot.1 spot.2)]
  ext ⟨x, y⟩
  cases turn <;> simp only [pointSource, rectangle, Set.mem_preimage, Set.mem_ofPred_eq] <;> omega

/--
The square of a cell is carried onto the square of the place where the cell lands, in a lattice of
points that divides every side into `scale` parts.
-/
theorem image_point_square
    (turn : Turn)
    (scale : Nat)
    {width height x y : Nat}
    (column : x < width)
    (row : y < height) :
    let place := turn.destination width height x y
    (fun spot : Int × Int => turn.point (scale * width) (scale * height) spot.1 spot.2) ''
        rectangle (scale * x) (scale * y) (scale * (x + 1)) (scale * (y + 1)) =
      rectangle (scale * place.1) (scale * place.2) (scale * (place.1 + 1))
        (scale * (place.2 + 1)) := by
  have mirror : ∀ {size place : Nat}, place < size →
      (scale * size : Int) - scale * (place + 1) = scale * (size - 1 - place : Nat) ∧
        (scale * size : Int) - scale * place = scale * ((size - 1 - place : Nat) + 1) := by
    intro size place inside
    have counted : ((size - 1 - place : Nat) : Int) = size - 1 - place := by omega
    rw [counted]
    constructor <;> ring
  obtain ⟨near, far⟩ := mirror column
  obtain ⟨upper, lower⟩ := mirror row
  intro place
  rw [image_point_rectangle]
  cases turn <;> simp only [place, destination, near, far, upper, lower]

end Turn

/-! ## Cells of turned masks -/

/-- A cell of a grid is found, in the turned grid, where it lands. -/
theorem Grid.cell?_turn_destination
    {α : Type}
    (turn : Turn)
    (grid : Grid α)
    {column row : Nat}
    (inColumn : column < grid.width)
    (inRow : row < grid.height) :
    (grid.turn turn).cell? (turn.destination grid.width grid.height column row).1
      (turn.destination grid.width grid.height column row).2 = grid.cell? column row := by
  obtain ⟨lands, back⟩ := turn.destination_bounds inColumn inRow
  rw [cell?_turn turn grid lands.1 lands.2, back]

namespace Mask

section Covering

variable {mask : Mask} {left top : Int} {x y : Nat}

/-- A mask covers the place of one of its cells exactly if this cell is covered. -/
theorem covers_eq_decide
    {column row : Nat}
    (atColumn : (x : Int) = left + column)
    (atRow : (y : Int) = top + row) :
    mask.covers left top x y = decide (128 ≤ mask.cellD column row 0) := by
  have columns : (x : Int) - left = column := by omega
  have rows : (y : Int) - top = row := by omega
  rw [covers, columns, rows, Int.toNat_natCast, Int.toNat_natCast]
  by_cases inside : column < mask.width ∧ row < mask.height
  · simp [inside]
  · have outside : mask.cellD column row 0 = 0 := by
      rw [Grid.cellD_eq, (mask.cell?_eq_none_iff column row).mpr inside, Option.getD_none]
    rw [outside]
    simp

/-- A turned mask covers no place on which no cell lands. -/
theorem exists_cell_of_covers_turn
    {turn : Turn}
    (covered : covers (mask.turn turn) left top x y = true) :
    ∃ column row, column < mask.width ∧ row < mask.height ∧
      (x : Int) = left + (turn.destination mask.width mask.height column row).1 ∧
        (y : Int) = top + (turn.destination mask.width mask.height column row).2 := by
  rw [covers, decide_eq_true_eq, Grid.width_turn, Grid.height_turn] at covered
  obtain ⟨leftLe, right, topLe, bottom, -⟩ := covered
  have inColumn : (x - left).toNat < (turn.sides mask.width mask.height).1 := by omega
  have inRow : (y - top).toNat < (turn.sides mask.width mask.height).2 := by omega
  obtain ⟨inside, lands⟩ := turn.source_bounds inColumn inRow
  refine ⟨_, _, inside.1, inside.2, ?_, ?_⟩
  · rw [lands, Int.toNat_of_nonneg leftLe]
    omega
  · rw [lands, Int.toNat_of_nonneg topLe]
    omega

end Covering

end Mask

/-! ## Fields on the canvas -/

/-- With its origin on the baseline, a field has its cells around the origin. -/
theorem Stamp.position_add_destination
    (stamp : Stamp)
    (turn : Turn)
    {origin : Origin}
    (onBaseline : origin.anchor = .baseline)
    {column row : Nat}
    (inColumn : column < stamp.mask.width)
    (inRow : row < stamp.mask.height) :
    (stamp.position turn origin).1 +
          (turn.destination stamp.mask.width stamp.mask.height column row).1 =
        origin.x + (turn.around column (row - stamp.baseline)).1 ∧
      (stamp.position turn origin).2 +
          (turn.destination stamp.mask.width stamp.mask.height column row).2 =
        origin.y + (turn.around column (row - stamp.baseline)).2 := by
  obtain ⟨columns, rows⟩ := turn.destination_eq_point_add_around inColumn inRow 0 stamp.baseline
  rw [Int.sub_zero] at columns rows
  simp only [Stamp.position, onBaseline]
  omega

namespace Drawing

section Pressing

variable (canvas : Canvas) (element : Element) (stamp : Stamp)

/-- A dot of the canvas is painted if the cell of the turned mask that stands on it is ink. -/
theorem cell?_press
    {column row x y : Nat}
    (atColumn : (x : Int) = (stamp.position element.content.turn element.origin).1 + column)
    (atRow : (y : Int) = (stamp.position element.content.turn element.origin).2 + row) :
    (press canvas element stamp).cell? x y =
      (canvas.cell? x y).map fun dot =>
        if 128 ≤ (stamp.mask.turn element.content.turn).cellD column row 0 then
          element.paint.apply dot
        else dot := by
  rw [press, Mask.cell?_paintOnto, Mask.covers_eq_decide atColumn atRow]
  simp only [decide_eq_true_eq]

/-- A dot of the canvas on which a cell lands is painted if this cell is ink. -/
theorem cell?_press_destination
    {column row x y : Nat}
    (inColumn : column < stamp.mask.width)
    (inRow : row < stamp.mask.height)
    (atColumn : (x : Int) = (stamp.position element.content.turn element.origin).1 +
      (element.content.turn.destination stamp.mask.width stamp.mask.height column row).1)
    (atRow : (y : Int) = (stamp.position element.content.turn element.origin).2 +
      (element.content.turn.destination stamp.mask.width stamp.mask.height column row).2) :
    (press canvas element stamp).cell? x y =
      (canvas.cell? x y).map fun dot =>
        if 128 ≤ stamp.mask.cellD column row 0 then element.paint.apply dot else dot := by
  rw [cell?_press canvas element stamp atColumn atRow, Grid.cellD_eq,
    stamp.mask.cell?_turn_destination element.content.turn inColumn inRow, ← Grid.cellD_eq]

/-- A dot of the canvas on which no cell lands stays as it is. -/
theorem cell?_press_of_uncovered
    {x y : Nat}
    (nowhere : ∀ column row, column < stamp.mask.width → row < stamp.mask.height →
      ¬ ((x : Int) = (stamp.position element.content.turn element.origin).1 +
          (element.content.turn.destination stamp.mask.width stamp.mask.height column row).1 ∧
        (y : Int) = (stamp.position element.content.turn element.origin).2 +
          (element.content.turn.destination stamp.mask.width stamp.mask.height column row).2)) :
    (press canvas element stamp).cell? x y = canvas.cell? x y := by
  rw [press, Mask.cell?_paintOnto]
  have unpainted : (fun dot : UInt8 =>
      if Mask.covers (stamp.mask.turn element.content.turn)
          (stamp.position element.content.turn element.origin).1
          (stamp.position element.content.turn element.origin).2 x y then
        element.paint.apply dot
      else dot) = id := by
    funext dot
    rw [if_neg, id]
    intro covered
    obtain ⟨column, row, inColumn, inRow, lands⟩ := Mask.exists_cell_of_covers_turn covered
    exact nowhere column row inColumn inRow lands
  rw [unpainted, Option.map_id_fun, id]

end Pressing

/--
A field is turned about its anchor.  With its origin on the baseline, the cell that stands `dx` to
the right of the left end of the baseline and `dy` below it lands where a turn about the origin
carries it, with its coverage, whatever the sides of the field are.  There it paints the dot of the
canvas if it is ink, and no dots are painted but those on which a cell lands.  This is so because
points are turned as cells are: the square of a cell is carried onto the square of the place where
the cell lands, however finely it is divided.  With its origin at the top left corner, the turned
field has its first cell on the origin, and all others to the right and below.  The place of the
field is the same in numbers of 32 bits, whenever they are in range.
-/
theorem press_turns_about_anchor (canvas : Canvas) (element : Element) (stamp : Stamp) :
    let mask := stamp.mask
    let turn := element.content.turn
    let origin := element.origin
    let position := stamp.position turn origin
    let pressed := press canvas element stamp
    let lands : Nat → Nat → Int × Int := fun column row =>
      let dx : Int := column
      let dy : Int := row - stamp.baseline
      match turn with
      | .upright => (origin.x + dx, origin.y + dy)
      | .left => (origin.x + dy, origin.y - 1 - dx)
      | .half => (origin.x - 1 - dx, origin.y - 1 - dy)
      | .right => (origin.x - 1 - dy, origin.y + dx)
    (∀ place, Checked.position stamp turn origin = some place → place = position) ∧
      (origin.anchor = .baseline →
        (∀ column row, column < mask.width → row < mask.height →
          let place := turn.destination mask.width mask.height column row
          (position.1 + place.1, position.2 + place.2) = lands column row ∧
            (mask.turn turn).cell? place.1 place.2 = mask.cell? column row ∧
            ∀ x y : Nat, lands column row = ((x : Int), (y : Int)) →
              pressed.cell? x y = (canvas.cell? x y).map fun dot =>
                if 128 ≤ mask.cellD column row 0 then element.paint.apply dot else dot) ∧
          ∀ x y : Nat, (∀ column row, column < mask.width → row < mask.height →
              lands column row ≠ ((x : Int), (y : Int))) →
            pressed.cell? x y = canvas.cell? x y) ∧
      (∀ (turn : Turn) (scale width height x y : Nat), x < width → y < height →
        let place := turn.destination width height x y
        (fun spot : Int × Int => turn.point (scale * width) (scale * height) spot.1 spot.2) ''
            Turn.rectangle (scale * x) (scale * y) (scale * (x + 1)) (scale * (y + 1)) =
          Turn.rectangle (scale * place.1) (scale * place.2) (scale * (place.1 + 1))
            (scale * (place.2 + 1))) ∧
      (origin.anchor = .topLeft →
        position = (origin.x, origin.y) ∧
          ∀ column row x y : Nat, (x : Int) = origin.x + column → (y : Int) = origin.y + row →
            pressed.cell? x y = (canvas.cell? x y).map fun dot =>
              if 128 ≤ (mask.turn turn).cellD column row 0 then element.paint.apply dot
              else dot) := by
  intro mask turn origin position pressed lands
  refine ⟨fun _ => Checked.eq_of_position, ?_,
    fun turn scale _ _ _ _ column row => turn.image_point_square scale column row, ?_⟩
  · intro onBaseline
    have placed : ∀ {column row : Nat}, column < mask.width → row < mask.height →
        (position.1 + (turn.destination mask.width mask.height column row).1,
          position.2 + (turn.destination mask.width mask.height column row).2) =
            lands column row := by
      intro column row inColumn inRow
      obtain ⟨columns, rows⟩ := stamp.position_add_destination turn onBaseline inColumn inRow
      rw [columns, rows]
      simp only [lands]
      cases turn <;> apply Prod.ext <;> simp only [Turn.around] <;> omega
    constructor
    · intro column row inColumn inRow place
      refine ⟨placed inColumn inRow, mask.cell?_turn_destination turn inColumn inRow, ?_⟩
      intro x y same
      rw [← placed inColumn inRow, Prod.mk.injEq] at same
      exact cell?_press_destination canvas element stamp inColumn inRow same.1.symm same.2.symm
    · intro x y nowhere
      apply cell?_press_of_uncovered
      rintro column row inColumn inRow ⟨atColumn, atRow⟩
      apply nowhere column row inColumn inRow
      rw [← placed inColumn inRow, atColumn, atRow]
  · intro atCorner
    have corner : position = (origin.x, origin.y) := by
      simp only [position, Stamp.position, atCorner]
    refine ⟨corner, ?_⟩
    intro column row x y atColumn atRow
    apply cell?_press
    · rw [show stamp.position _ _ = _ from corner, atColumn]
    · rw [show stamp.position _ _ = _ from corner, atRow]

/--
A field that is read from the bottom up, with its origin on the baseline and at the top left corner.
-/
theorem press_turns_about_anchor_of_reading_up :
    let canvas := Canvas.blank 4 4
    let content : Content := .text "-" ⟨'A', .bottom, 9, 5⟩ none
    let typeset : Element := ⟨⟨1, 3, .baseline⟩, false, content⟩
    let cornered : Element := ⟨⟨1, 3, .topLeft⟩, false, content⟩
    let stamp : Stamp := ⟨Mask.ofInk 3 2 fun column row => column = 2 && row = 0, 1⟩
    (typeset.origin.anchor = .baseline ∧ 2 < stamp.mask.width ∧ 0 < stamp.mask.height ∧
        ((1 + (0 - 1), 3 - 1 - 2) : Int × Int) = (0, 0) ∧
        (press canvas typeset stamp).cell? 0 0 = some 0 ∧
        (press canvas typeset stamp).cell? 3 3 = some 255) ∧
      cornered.origin.anchor = .topLeft ∧ (press canvas cornered stamp).cell? 1 3 = some 0 := by
  intro canvas content typeset cornered stamp
  have inColumn : 2 < stamp.mask.width := by decide
  have inRow : 0 < stamp.mask.height := by decide
  obtain ⟨painted, unpainted⟩ := (press_turns_about_anchor canvas typeset stamp).2.1 rfl
  obtain ⟨-, -, -, fromCorner⟩ := press_turns_about_anchor canvas cornered stamp
  refine ⟨⟨rfl, inColumn, inRow, by decide, ?_, ?_⟩, rfl, ?_⟩
  · obtain ⟨-, -, dot⟩ := painted 2 0 inColumn inRow
    exact (dot 0 0 (by decide)).trans (by decide)
  · refine (unpainted 3 3 ?_).trans (by decide)
    intro column row _ rowLt same
    have atColumn : (1 : Int) + (row - 1) = 3 := congrArg Prod.fst same
    have twoRows : row < 2 := rowLt
    omega
  · exact ((fromCorner rfl).2 0 0 1 3 rfl rfl).trans (by decide)

end Drawing

end LabelPress
