import Mathlib.Algebra.Order.Field.Rat
import Mathlib.Algebra.Order.Ring.Abs
import Mathlib.Tactic.Linarith
import Mathlib.Tactic.Ring
import LabelPress.Proofs.Drawing.Cells
import LabelPress.Proofs.Drawing.CheckedShapes

/-!
# Outlines of boxes

A rectangle with rounded corners is what discs cover whose centres fill its core, the rectangle
that is smaller by their radius on each side (`roundedRegion`).  A dot belongs to the outline of a
box if its middle lies in the outer region and not in the inner one (`boxInk_iff`).  This is said in
exact fractions of dots, of which the whole numbers of sixteenths are a scale
(`mem_roundedRegion_scale`).

The inner region lies within the thickness from each edge.  While its corners are round their
centres are those of the outer corners, and the discs shrink; then it has square corners and its
core shrinks.  Either way its core and its discs become smaller as the outline becomes thicker
(`innerRegion_antitone`).  The main statement is `box_outline`.
-/

namespace LabelPress

/-! ## Regions with round corners -/

/-- The points that are no farther than `radius` from the core of a rectangle. -/
def roundedRegion (left top right bottom radius : ℚ) : Set (ℚ × ℚ) :=
  {point | ∃ x y,
    (left + radius ≤ x ∧ x ≤ right - radius) ∧ (top + radius ≤ y ∧ y ≤ bottom - radius) ∧
      (point.1 - x) ^ 2 + (point.2 - y) ^ 2 ≤ radius ^ 2}

section Regions

variable {left top right bottom radius : ℚ}

/-- A region lies inside its rectangle: a disc reaches no farther than its radius. -/
theorem bounds_of_mem_roundedRegion (nonneg : 0 ≤ radius) {x y : ℚ}
    (inside : (x, y) ∈ roundedRegion left top right bottom radius) :
    (left ≤ x ∧ x ≤ right) ∧ (top ≤ y ∧ y ≤ bottom) := by
  obtain ⟨centreX, centreY, columns, rows, near⟩ := inside
  have reachX : -radius ≤ x - centreX ∧ x - centreX ≤ radius :=
    abs_le_of_sq_le_sq' (le_of_add_le_of_nonneg_left near (sq_nonneg _)) nonneg
  have reachY : -radius ≤ y - centreY ∧ y - centreY ≤ radius :=
    abs_le_of_sq_le_sq' (le_of_add_le_of_nonneg_right near (sq_nonneg _)) nonneg
  exact ⟨⟨by linarith, by linarith⟩, by linarith, by linarith⟩

/-- Without rounding the region is the rectangle. -/
theorem mem_roundedRegion_zero (x y : ℚ) :
    (x, y) ∈ roundedRegion left top right bottom 0 ↔
      (left ≤ x ∧ x ≤ right) ∧ (top ≤ y ∧ y ≤ bottom) := by
  constructor
  · exact bounds_of_mem_roundedRegion le_rfl
  · rintro ⟨columns, rows⟩
    exact ⟨x, y, by simpa using columns, by simpa using rows, by simp⟩

theorem mirror_columns_mem_roundedRegion {x y : ℚ}
    (inside : (x, y) ∈ roundedRegion left top right bottom radius) :
    (left + right - x, y) ∈ roundedRegion left top right bottom radius := by
  obtain ⟨centreX, centreY, ⟨afterLeft, beforeRight⟩, rows, near⟩ := inside
  refine ⟨left + right - centreX, centreY, ⟨by linarith, by linarith⟩, rows, ?_⟩
  rw [sub_sub_sub_cancel_left, sub_sq_comm]
  exact near

/-- A region is its own mirror image, from left to right. -/
theorem mirror_columns_mem_roundedRegion_iff (x y : ℚ) :
    (left + right - x, y) ∈ roundedRegion left top right bottom radius ↔
      (x, y) ∈ roundedRegion left top right bottom radius := by
  constructor
  · intro inside
    rw [← sub_sub_cancel (left + right) x]
    exact mirror_columns_mem_roundedRegion inside
  · exact mirror_columns_mem_roundedRegion

/-- Columns and rows of a region may change places. -/
theorem swap_mem_roundedRegion {x y : ℚ}
    (inside : (x, y) ∈ roundedRegion left top right bottom radius) :
    (y, x) ∈ roundedRegion top left bottom right radius := by
  obtain ⟨centreX, centreY, columns, rows, near⟩ := inside
  exact ⟨centreY, centreX, rows, columns, (add_comm _ _).trans_le near⟩

/-- A region with a smaller core and smaller discs lies inside. -/
theorem roundedRegion_subset
    {left' top' right' bottom' radius' : ℚ}
    (lefts : left + radius ≤ left' + radius')
    (rights : right' - radius' ≤ right - radius)
    (tops : top + radius ≤ top' + radius')
    (bottoms : bottom' - radius' ≤ bottom - radius)
    (nonneg : 0 ≤ radius')
    (radii : radius' ≤ radius) :
    roundedRegion left' top' right' bottom' radius' ⊆
      roundedRegion left top right bottom radius := by
  rintro ⟨x, y⟩ ⟨centreX, centreY, columns, rows, near⟩
  exact ⟨centreX, centreY, ⟨lefts.trans columns.1, columns.2.trans rights⟩,
    ⟨tops.trans rows.1, rows.2.trans bottoms⟩, near.trans (pow_le_pow_left₀ nonneg radii 2)⟩

/-- A region may be measured in another unit. -/
theorem mem_roundedRegion_scale {scale : ℚ} (positive : 0 < scale) (x y : ℚ) :
    (scale * x, scale * y) ∈ roundedRegion (scale * left) (scale * top) (scale * right)
        (scale * bottom) (scale * radius) ↔
      (x, y) ∈ roundedRegion left top right bottom radius := by
  have squarePos : 0 < scale ^ 2 := pow_pos positive 2
  simp only [roundedRegion, Set.mem_ofPred_eq]
  rw [(mul_left_surjective₀ positive.ne').exists₂]
  simp only [← mul_add, ← mul_sub, mul_le_mul_iff_right₀ positive, mul_pow,
    mul_le_mul_iff_right₀ squarePos]

end Regions

/-! ## Rectangles of sixteenths -/

namespace RoundedRect

theorem nearest_bounds {low high : Int} (ends : low ≤ high) (number : Int) :
    low ≤ nearest low high number ∧ nearest low high number ≤ high := by
  rw [nearest]
  omega

/-- The nearest number between two ends is at least as near as any other one between them. -/
theorem sq_sub_nearest_le {low high : Int} {centre : ℚ} (number : Int)
    (above : (low : ℚ) ≤ centre) (below : centre ≤ high) :
    ((number : ℚ) - nearest low high number) ^ 2 ≤ (number - centre) ^ 2 := by
  -- Outside the ends the nearest number is the end in between; inside it is the number itself.
  rcases lt_or_ge number low with before | afterLow
  · have clamped : nearest low high number = low := by
      rw [nearest]
      omega
    have order : (number : ℚ) < low := mod_cast before
    rw [clamped, ← neg_sq, ← neg_sq (_ - centre)]
    exact pow_le_pow_left₀ (by linarith) (by linarith) 2
  · have ends : low ≤ high := mod_cast above.trans below
    rcases le_or_gt number high with inside | after
    · have unclamped : nearest low high number = number := by
        rw [nearest]
        omega
      rw [unclamped, sub_self, zero_pow two_ne_zero]
      exact sq_nonneg _
    · have clamped : nearest low high number = high := by
        rw [nearest]
        omega
      have order : (high : ℚ) < number := mod_cast after
      rw [clamped]
      exact pow_le_pow_left₀ (by linarith) (by linarith) 2

theorem contains_iff_of_square {rect : RoundedRect} (square : rect.radius = 0) (x y : Int) :
    rect.contains x y = true ↔
      (rect.left ≤ x ∧ x ≤ rect.right) ∧ (rect.top ≤ y ∧ y ≤ rect.bottom) := by
  rw [contains]
  split
  · next outside =>
      simp only [Bool.false_eq_true, false_iff]
      omega
  · next inside =>
      rw [if_pos square.le]
      simp only [true_iff]
      omega

theorem contains_iff_of_rounded {rect : RoundedRect} (rounded : 0 < rect.radius) (x y : Int) :
    rect.contains x y = true ↔
      ((rect.left ≤ x ∧ x ≤ rect.right) ∧ (rect.top ≤ y ∧ y ≤ rect.bottom)) ∧
        (x - nearest (rect.left + rect.radius) (rect.right - rect.radius) x) ^ 2 +
          (y - nearest (rect.top + rect.radius) (rect.bottom - rect.radius) y) ^ 2 ≤
            rect.radius ^ 2 := by
  rw [contains]
  split
  · next outside =>
      simp only [Bool.false_eq_true, false_iff]
      omega
  · next inside =>
      rw [if_neg rounded.not_ge, decide_eq_true_eq, ← pow_two, ← pow_two, ← pow_two]
      exact (and_iff_right (by omega)).symm

/-- A rectangle contains exactly the points of its region. -/
theorem contains_iff {rect : RoundedRect} (fit : Checked.CornersFit rect)
    (nonneg : 0 ≤ rect.radius) (x y : Int) :
    rect.contains x y = true ↔
      ((x : ℚ), (y : ℚ)) ∈
        roundedRegion rect.left rect.top rect.right rect.bottom rect.radius := by
  rcases nonneg.eq_or_lt with square | rounded
  · rw [contains_iff_of_square square.symm, ← square, Int.cast_zero, mem_roundedRegion_zero]
    norm_cast
  · rw [contains_iff_of_rounded rounded]
    have radiusNonneg : (0 : ℚ) ≤ rect.radius := Int.cast_nonneg nonneg
    constructor
    · rintro ⟨-, near⟩
      obtain ⟨columnsFit, rowsFit⟩ := fit rounded
      refine ⟨nearest (rect.left + rect.radius) (rect.right - rect.radius) x,
        nearest (rect.top + rect.radius) (rect.bottom - rect.radius) y, ?_, ?_, ?_⟩
      · exact_mod_cast nearest_bounds columnsFit x
      · exact_mod_cast nearest_bounds rowsFit y
      · dsimp only
        exact_mod_cast near
    · intro inside
      have bounds := bounds_of_mem_roundedRegion radiusNonneg inside
      obtain ⟨centreX, centreY, columns, rows, near⟩ := inside
      have nearestColumn :
          ((x : ℚ) - nearest (rect.left + rect.radius) (rect.right - rect.radius) x) ^ 2 ≤
            (x - centreX) ^ 2 :=
        sq_sub_nearest_le x (by exact_mod_cast columns.1) (by exact_mod_cast columns.2)
      have nearestRow :
          ((y : ℚ) - nearest (rect.top + rect.radius) (rect.bottom - rect.radius) y) ^ 2 ≤
            (y - centreY) ^ 2 :=
        sq_sub_nearest_le y (by exact_mod_cast rows.1) (by exact_mod_cast rows.2)
      have nearer := (add_le_add nearestColumn nearestRow).trans near
      exact ⟨by exact_mod_cast bounds, by exact_mod_cast nearer⟩

end RoundedRect

/-! ## Boxes in dots -/

namespace Shapes

/-- The middle of a dot. -/
def middlePoint (x y : Nat) : ℚ × ℚ :=
  (x + 1 / 2, y + 1 / 2)

/-- The radius of the corners of a box: that many eighths of half the shorter side. -/
def cornerRadius (width height rounding : Nat) : ℚ :=
  min rounding 8 / 8 * min width height / 2

/-- What the outer edge of a box encloses. -/
def outerRegion (width height rounding : Nat) : Set (ℚ × ℚ) :=
  roundedRegion 0 0 width height (cornerRadius width height rounding)

/-- What the inner edge of the outline of a box encloses. -/
def innerRegion (width height thickness rounding : Nat) : Set (ℚ × ℚ) :=
  roundedRegion thickness thickness (width - thickness) (height - thickness)
    (max (cornerRadius width height rounding - thickness) 0)

theorem middle_eq (dot : Nat) : (middle dot : ℚ) = 16 * (dot + 1 / 2) := by
  rw [middle]
  push_cast
  ring

theorem boxRadius_eq (width height rounding : Nat) :
    (boxRadius width height rounding : ℚ) = 16 * cornerRadius width height rounding := by
  rw [boxRadius, cornerRadius]
  push_cast
  ring

theorem boxRadius_nonneg (width height rounding : Nat) :
    0 ≤ boxRadius width height rounding :=
  mul_nonneg (by omega) (by omega)

theorem boxOuter_contains_iff (width height rounding x y : Nat) :
    (boxOuter width height rounding).contains (middle x) (middle y) = true ↔
      middlePoint x y ∈ outerRegion width height rounding := by
  have sixteen : (0 : ℚ) < 16 := by norm_num
  rw [RoundedRect.contains_iff (Checked.cornersFit_boxOuter width height rounding)
    (boxRadius_nonneg width height rounding)]
  rw [middlePoint, outerRegion, ← mem_roundedRegion_scale sixteen (x + 1 / 2)]
  rw [middle_eq, middle_eq, boxOuter, ← boxRadius_eq, mul_zero]
  push_cast
  rfl

theorem boxInner_contains_iff (width height thickness rounding x y : Nat) :
    (boxInner width height thickness rounding).contains (middle x) (middle y) = true ↔
      middlePoint x y ∈ innerRegion width height thickness rounding := by
  have sixteen : (0 : ℚ) < 16 := by norm_num
  rw [RoundedRect.contains_iff (Checked.cornersFit_boxInner width height thickness rounding)
    (le_max_right _ _)]
  rw [middlePoint, innerRegion, ← mem_roundedRegion_scale sixteen (x + 1 / 2)]
  rw [middle_eq, middle_eq, boxInner, mul_max_of_nonneg _ _ sixteen.le]
  rw [mul_zero, mul_sub, mul_sub, mul_sub, ← boxRadius_eq]
  push_cast
  rfl

/-- A dot is ink if its middle lies within the outer edge and not within the inner one. -/
theorem boxInk_iff (width height thickness rounding x y : Nat) :
    boxInk width height thickness rounding x y = true ↔
      middlePoint x y ∈ outerRegion width height rounding ∧
        middlePoint x y ∉ innerRegion width height thickness rounding := by
  rw [boxInk, Bool.and_eq_true, Bool.not_eq_true', ← Bool.not_eq_true, boxOuter_contains_iff,
    boxInner_contains_iff]

/-! ## Corners, edges and thickness -/

theorem cornerRadius_zero (width height : Nat) : cornerRadius width height 0 = 0 := by
  simp [cornerRadius]

/-- The corners take at most half of a side. -/
theorem cornerRadius_le (width height rounding : Nat) :
    cornerRadius width height rounding ≤ width / 2 ∧
      cornerRadius width height rounding ≤ height / 2 := by
  have radius := boxRadius_eq width height rounding
  obtain ⟨byWidth, byHeight⟩ := Checked.boxRadius_le width height rounding
  have widthBound : (boxRadius width height rounding : ℚ) ≤ 8 * width := mod_cast byWidth
  have heightBound : (boxRadius width height rounding : ℚ) ≤ 8 * height := mod_cast byHeight
  constructor <;> linarith

/-- The middle of a dot lies behind an edge between dots if the dot does. -/
theorem natCast_le_middle (edge dot : Nat) : (edge : ℚ) ≤ dot + 1 / 2 ↔ edge ≤ dot := by
  constructor
  · intro behind
    by_contra before
    have next : (dot : ℚ) + 1 ≤ edge := mod_cast not_le.mp before
    linarith
  · intro behind
    have cast : (edge : ℚ) ≤ dot := mod_cast behind
    linarith

/-- The middle of a dot lies before an edge between dots if the dot does. -/
theorem middle_le_natCast_sub (side edge dot : Nat) :
    (dot : ℚ) + 1 / 2 ≤ side - edge ↔ dot + edge < side := by
  constructor
  · intro before
    by_contra behind
    have cast : (side : ℚ) ≤ dot + edge := mod_cast not_lt.mp behind
    linarith
  · intro before
    have next : (dot : ℚ) + edge + 1 ≤ side := mod_cast before
    linarith

/-- Where the thickness reaches the corners the inner edge has none. -/
theorem middlePoint_mem_innerRegion_iff {width height thickness rounding : Nat}
    (reached : cornerRadius width height rounding ≤ thickness) (x y : Nat) :
    middlePoint x y ∈ innerRegion width height thickness rounding ↔
      (thickness ≤ x ∧ x + thickness < width) ∧ (thickness ≤ y ∧ y + thickness < height) := by
  rw [innerRegion, max_eq_right (sub_nonpos_of_le reached), middlePoint, mem_roundedRegion_zero]
  simp only [natCast_le_middle, middle_le_natCast_sub]

/-- Without rounding every dot has its middle within the outer edge. -/
theorem middlePoint_mem_outerRegion_square {width height x y : Nat} (column : x < width)
    (row : y < height) :
    middlePoint x y ∈ outerRegion width height 0 := by
  have columns := (middle_le_natCast_sub width 0 x).mpr column
  have rows := (middle_le_natCast_sub height 0 y).mpr row
  rw [outerRegion, cornerRadius_zero, middlePoint, mem_roundedRegion_zero]
  push_cast at columns rows
  exact ⟨⟨by positivity, by linarith⟩, by positivity, by linarith⟩

/-- A thicker outline encloses less. -/
theorem innerRegion_antitone (width height thickness rounding : Nat) :
    innerRegion width height (thickness + 1) rounding ⊆
      innerRegion width height thickness rounding := by
  -- The core begins where the corners do or, once these are gone, at the inner edge.
  have core : ∀ edge : ℚ, edge + max (cornerRadius width height rounding - edge) 0 =
      max (cornerRadius width height rounding) edge := by
    intro edge
    rw [← max_add_add_left, add_sub_cancel, add_zero]
  have corner : (thickness : ℚ) ≤ (thickness + 1 : Nat) := mod_cast Nat.le_succ thickness
  have coreShrinks := max_le_max_left (cornerRadius width height rounding) corner
  rw [← core, ← core] at coreShrinks
  refine roundedRegion_subset ?_ ?_ ?_ ?_ (le_max_right _ _) ?_
  · exact coreShrinks
  · linarith
  · exact coreShrinks
  · linarith
  · exact max_le_max_right 0 (sub_le_sub_left corner _)

/-- A dot counted from the other end of a side has the mirrored middle. -/
theorem middle_mirror {side dot : Nat} (inside : dot < side) :
    ((side - 1 - dot : Nat) : ℚ) + 1 / 2 = side - (dot + 1 / 2) := by
  have counted : ((side - 1 - dot : Nat) : ℚ) + 1 + dot = side := mod_cast by omega
  linarith

/-- Mirroring a dot from left to right mirrors its middle. -/
theorem mirror_middlePoint_mem_iff {left top right bottom radius : ℚ} {width x : Nat} (y : Nat)
    (sides : left + right = width) (column : x < width) :
    middlePoint (width - 1 - x) y ∈ roundedRegion left top right bottom radius ↔
      middlePoint x y ∈ roundedRegion left top right bottom radius := by
  rw [middlePoint, middle_mirror column, ← sides, mirror_columns_mem_roundedRegion_iff,
    ← middlePoint]

/-- Dots that are mirrored from left to right are both ink or both not. -/
theorem boxInk_mirror_columns {width x : Nat} (height thickness rounding y : Nat)
    (column : x < width) :
    boxInk width height thickness rounding (width - 1 - x) y =
      boxInk width height thickness rounding x y := by
  rw [Bool.eq_iff_iff, boxInk_iff, boxInk_iff, outerRegion, innerRegion,
    mirror_middlePoint_mem_iff y (zero_add _) column,
    mirror_middlePoint_mem_iff y (add_sub_cancel _ _) column]

theorem swap_middlePoint_mem_iff {left top right bottom radius : ℚ} (x y : Nat) :
    middlePoint y x ∈ roundedRegion top left bottom right radius ↔
      middlePoint x y ∈ roundedRegion left top right bottom radius :=
  ⟨swap_mem_roundedRegion, swap_mem_roundedRegion⟩

/-- If the sides of a box change places, so do the columns and rows of its dots. -/
theorem boxInk_swap (width height thickness rounding x y : Nat) :
    boxInk height width thickness rounding y x = boxInk width height thickness rounding x y := by
  have corners : cornerRadius height width rounding = cornerRadius width height rounding := by
    rw [cornerRadius, cornerRadius, Nat.min_comm height]
  rw [Bool.eq_iff_iff, boxInk_iff, boxInk_iff, outerRegion, outerRegion, innerRegion, innerRegion,
    corners, swap_middlePoint_mem_iff x y, swap_middlePoint_mem_iff x y]

/-- Dots that are mirrored from top to bottom are both ink or both not. -/
theorem boxInk_mirror_rows {height y : Nat} (width thickness rounding x : Nat)
    (row : y < height) :
    boxInk width height thickness rounding x (height - 1 - y) =
      boxInk width height thickness rounding x y := by
  rw [← boxInk_swap, boxInk_mirror_columns _ _ _ _ row, boxInk_swap]

/-- What is ink stays ink in a thicker outline. -/
theorem boxInk_thicker {width height thickness rounding x y : Nat}
    (ink : boxInk width height thickness rounding x y = true) :
    boxInk width height (thickness + 1) rounding x y = true := by
  rw [boxInk_iff] at ink ⊢
  exact ⟨ink.1, fun inside => ink.2 (innerRegion_antitone _ _ _ _ inside)⟩

/-- With square corners the outline is what lies within the thickness from an edge. -/
theorem boxInk_square_iff {width height x y : Nat} (thickness : Nat) (column : x < width)
    (row : y < height) :
    boxInk width height thickness 0 x y = true ↔
      x < thickness ∨ width - thickness ≤ x ∨ y < thickness ∨ height - thickness ≤ y := by
  have reached : cornerRadius width height 0 ≤ thickness := by
    rw [cornerRadius_zero]
    exact Nat.cast_nonneg thickness
  rw [boxInk_iff, and_iff_right (middlePoint_mem_outerRegion_square column row),
    middlePoint_mem_innerRegion_iff reached]
  omega

/-- An outline of half the shorter side leaves nothing out. -/
theorem boxInk_thick_iff {width height thickness : Nat} (thick : min width height ≤ 2 * thickness)
    (rounding x y : Nat) :
    boxInk width height thickness rounding x y = true ↔
      middlePoint x y ∈ outerRegion width height rounding := by
  have reached : cornerRadius width height rounding ≤ thickness := by
    obtain ⟨byWidth, byHeight⟩ := cornerRadius_le width height rounding
    have cast : min (width : ℚ) height ≤ 2 * thickness := mod_cast thick
    rcases min_le_iff.mp cast with narrow | low
    · linarith
    · linarith
  rw [boxInk_iff, and_iff_left]
  rw [middlePoint_mem_innerRegion_iff reached]
  omega

/-! ## The mask -/

/-- Whether a mask is fully ink at a place. -/
def InkAt (mask : Mask) (x y : Nat) : Prop :=
  mask.cell? x y = some fullInk

instance (mask : Mask) (x y : Nat) : Decidable (InkAt mask x y) :=
  inferInstanceAs (Decidable (mask.cell? x y = some fullInk))

theorem inkAt_box_iff {width height x y : Nat} (thickness rounding : Nat) (column : x < width)
    (row : y < height) :
    InkAt (box width height thickness rounding) x y ↔
      boxInk width height thickness rounding x y = true := by
  rw [InkAt, box, Mask.cell?_ofInk _ column row]
  cases boxInk width height thickness rounding x y with
  | false =>
      decide
  | true =>
      decide

theorem cell?_box_eq_of_boxInk_eq {width height thickness rounding x y x' y' : Nat}
    (column : x < width) (row : y < height) (column' : x' < width) (row' : y' < height)
    (ink : boxInk width height thickness rounding x' y' =
      boxInk width height thickness rounding x y) :
    (box width height thickness rounding).cell? x' y' =
      (box width height thickness rounding).cell? x y := by
  rw [box, Mask.cell?_ofInk _ column row, Mask.cell?_ofInk _ column' row', ink]

/--
The mask of a box has the sides of the box, and each dot is fully ink or not at all.  A dot is ink
if its middle lies within the outer edge and not within the inner one; with square corners these
are the dots within the thickness from an edge, and all dots if twice the thickness reaches a side.
The mask is its own mirror image both ways, a thicker outline keeps the ink, and an outline of at
least half the shorter side fills the outer edge.
-/
theorem box_outline (width height thickness rounding : Nat) :
    ((box width height thickness rounding).width = width ∧
      (box width height thickness rounding).height = height) ∧
    ∀ x y, x < width → y < height →
      (InkAt (box width height thickness rounding) x y ∨
        (box width height thickness rounding).cell? x y = some 0) ∧
      (InkAt (box width height thickness 0) x y ↔
        x < thickness ∨ width - thickness ≤ x ∨ y < thickness ∨ height - thickness ≤ y) ∧
      (width ≤ 2 * thickness ∨ height ≤ 2 * thickness →
        InkAt (box width height thickness 0) x y) ∧
      (InkAt (box width height thickness rounding) x y ↔
        middlePoint x y ∈ outerRegion width height rounding ∧
          middlePoint x y ∉ innerRegion width height thickness rounding) ∧
      (box width height thickness rounding).cell? (width - 1 - x) y =
        (box width height thickness rounding).cell? x y ∧
      (box width height thickness rounding).cell? x (height - 1 - y) =
        (box width height thickness rounding).cell? x y ∧
      (InkAt (box width height thickness rounding) x y →
        InkAt (box width height (thickness + 1) rounding) x y) ∧
      (min width height ≤ 2 * thickness →
        (InkAt (box width height thickness rounding) x y ↔
          middlePoint x y ∈ outerRegion width height rounding)) := by
  refine ⟨⟨rfl, rfl⟩, fun x y column row => ?_⟩
  have mirroredColumn : width - 1 - x < width := by omega
  have mirroredRow : height - 1 - y < height := by omega
  simp only [inkAt_box_iff _ _ column row]
  refine ⟨?_, boxInk_square_iff thickness column row, ?_, boxInk_iff .., ?_, ?_, boxInk_thicker,
    fun thick => boxInk_thick_iff thick rounding x y⟩
  · rw [box, Mask.cell?_ofInk _ column row]
    cases boxInk width height thickness rounding x y with
    | false =>
        exact Or.inr rfl
    | true =>
        exact Or.inl rfl
  · intro thick
    rw [boxInk_square_iff thickness column row]
    omega
  · exact cell?_box_eq_of_boxInk_eq column row mirroredColumn row
      (boxInk_mirror_columns height thickness rounding y column)
  · exact cell?_box_eq_of_boxInk_eq column row column mirroredRow
      (boxInk_mirror_rows width thickness rounding x row)

/-- A frame, a box too thick for one, and round boxes: mirrored, in a thicker frame, and filled. -/
theorem box_outline_of_small_boxes :
    InkAt (box 4 3 1 0) 3 1 ∧
    ¬InkAt (box 4 3 1 0) 2 1 ∧
    InkAt (box 4 3 2 0) 2 1 ∧
    (box 8 8 2 4).cell? 0 0 = (box 8 8 2 4).cell? 7 0 ∧
    InkAt (box 8 8 3 4) 1 1 ∧
    (InkAt (box 8 8 4 4) 3 3 ↔ middlePoint 3 3 ∈ outerRegion 8 8 4) := by
  have thin := ((box_outline 4 3 1 0).2 3 1 (by decide) (by decide)).2.1
  have middle := ((box_outline 4 3 1 0).2 2 1 (by decide) (by decide)).2.1
  have solid := ((box_outline 4 3 2 0).2 2 1 (by decide) (by decide)).2.2.1
  have round := ((box_outline 8 8 2 4).2 7 0 (by decide) (by decide)).2.2.2.2.1
  have thicker := ((box_outline 8 8 2 4).2 1 1 (by decide) (by decide)).2.2.2.2.2.2.1
  have filled := ((box_outline 8 8 4 4).2 3 3 (by decide) (by decide)).2.2.2.2.2.2.2
  exact ⟨thin.mpr (by decide), fun ink => absurd (middle.mp ink) (by decide),
    solid (by decide), round, thicker (by decide), filled (by decide)⟩

end Shapes

end LabelPress
