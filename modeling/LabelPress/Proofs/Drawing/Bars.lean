import LabelPress.Proofs.Drawing.CheckedBars

/-!
# Bars and the text beside them

Modules are drawn one after another, each as a rectangle of its own.  What comes out is one picture:
the dot at a column is ink exactly if the module at this column is a bar (`cell?_draw`).

A line of text is merged into this picture in rows of its own.  The main statement
(`stamp_draws_bars`) gives every dot of a symbol.  In the rows of the bars there are bars only; the
other rows hold the text and the gap, and nothing else.
-/

namespace LabelPress.Bars

/-- Whether the dot at a column belongs to a bar, if the modules begin at column `left`. -/
def IsBar (modules : List Bool) (moduleWidth left x : Nat) : Prop :=
  left ≤ x ∧ modules[(x - left) / moduleWidth]? = some true

instance (modules : List Bool) (moduleWidth left x : Nat) :
    Decidable (IsBar modules moduleWidth left x) :=
  inferInstanceAs (Decidable (_ ∧ _))

/-- The first module has the first columns, the modules behind it have the columns behind. -/
theorem isBar_cons {moduleWidth left x : Nat} (moduleWidthPos : 0 < moduleWidth) (bar : Bool)
    (modules : List Bool) :
    IsBar (bar :: modules) moduleWidth left x ↔
      ((left ≤ x ∧ x < left + moduleWidth) ∧ bar = true) ∨
        IsBar modules moduleWidth (left + moduleWidth) x := by
  by_cases first : left ≤ x ∧ x < left + moduleWidth
  · have number : (x - left) / moduleWidth = 0 := Nat.div_eq_of_lt (by omega)
    have notBehind : ¬ left + moduleWidth ≤ x := by omega
    simp [IsBar, number, first, notBehind]
  · by_cases behind : left + moduleWidth ≤ x
    · obtain ⟨distance, rfl⟩ := Nat.exists_eq_add_of_le behind
      have number : (left + moduleWidth + distance - left) / moduleWidth =
          distance / moduleWidth + 1 := by
        rw [Nat.add_assoc, Nat.add_sub_cancel_left, Nat.add_div_left _ moduleWidthPos]
      have inside : left ≤ left + moduleWidth + distance := by omega
      have notFirst : ¬ left + moduleWidth + distance < left + moduleWidth := by omega
      simp [IsBar, number, inside, notFirst]
    · have outside : ¬ left ≤ x := by omega
      simp [IsBar, outside, behind]

/-- A bar lies in the columns of the modules. -/
theorem isBar_iff {moduleWidth : Nat} (moduleWidthPos : 0 < moduleWidth) (modules : List Bool)
    (left x : Nat) :
    IsBar modules moduleWidth left x ↔
      left ≤ x ∧ x < left + modules.length * moduleWidth ∧
        modules[(x - left) / moduleWidth]? = some true := by
  constructor
  · rintro ⟨leftLe, found⟩
    obtain ⟨inside, -⟩ := List.getElem?_eq_some_iff.mp found
    have offset := (Nat.div_lt_iff_lt_mul moduleWidthPos).mp inside
    exact ⟨leftLe, by omega, found⟩
  · rintro ⟨leftLe, -, found⟩
    exact ⟨leftLe, found⟩

/-- Bars are drawn on the dots of their columns, and no other dot is changed. -/
theorem cell?_draw {moduleWidth : Nat} (moduleWidthPos : 0 < moduleWidth) (left top height : Nat)
    (mask : Mask) (modules : List Bool) (x y : Nat) :
    (draw moduleWidth left top height mask modules).cell? x y =
      if IsBar modules moduleWidth left x ∧ top ≤ y ∧ y < top + height then
        (mask.cell? x y).map fun _ => fullInk
      else mask.cell? x y := by
  induction modules generalizing left mask with
  | nil =>
      simp [draw, IsBar]
  | cons bar modules ih =>
      simp only [draw, ih, isBar_cons moduleWidthPos]
      cases bar with
      | false =>
          simp
      | true =>
          -- A dot that is filled again stays ink.
          have again : ((mask.cell? x y).map fun _ => fullInk).map (fun _ => fullInk) =
              (mask.cell? x y).map fun _ => fullInk := by
            rw [Option.map_map]
            rfl
          rw [if_pos rfl, Mask.cell?_fillRect]
          by_cases rows : top ≤ y ∧ y < top + height
          · by_cases first : left ≤ x ∧ x < left + moduleWidth
            · simp [rows, first, again]
            · simp [rows, first]
          · simp [rows]

theorem width_draw (moduleWidth left top height : Nat) (mask : Mask) (modules : List Bool) :
    (draw moduleWidth left top height mask modules).width = mask.width := by
  induction modules generalizing left mask with
  | nil =>
      rfl
  | cons bar modules ih =>
      rw [draw, ih]
      cases bar <;> rfl

theorem height_draw (moduleWidth left top height : Nat) (mask : Mask) (modules : List Bool) :
    (draw moduleWidth left top height mask modules).height = mask.height := by
  induction modules generalizing left mask with
  | nil =>
      rfl
  | cons bar modules ih =>
      rw [draw, ih]
      cases bar <;> rfl

/-- Bars on a mask that covers nothing. -/
def barred (modules : List Bool) (moduleWidth left top barsHeight width height : Nat) : Mask :=
  draw moduleWidth left top barsHeight (Mask.blank width height) modules

theorem cell?_barred {moduleWidth width height x y : Nat} (moduleWidthPos : 0 < moduleWidth)
    (modules : List Bool) (left top barsHeight : Nat) (column : x < width) (row : y < height) :
    (barred modules moduleWidth left top barsHeight width height).cell? x y =
      some (if IsBar modules moduleWidth left x ∧ top ≤ y ∧ y < top + barsHeight then 255
        else 0) := by
  rw [barred, cell?_draw moduleWidthPos, Mask.blank, Grid.cell?_replicate 0 column row]
  split <;> rfl

section Rows

variable {moduleWidth left top barsHeight width height x y : Nat}

/-- In the rows of the bars a dot is ink exactly if it belongs to a bar. -/
theorem cell?_barred_of_inside
    (moduleWidthPos : 0 < moduleWidth)
    (modules : List Bool)
    (column : x < width)
    (row : y < height)
    (inside : top ≤ y ∧ y < top + barsHeight) :
    (barred modules moduleWidth left top barsHeight width height).cell? x y =
      some (if left ≤ x ∧ x < left + modules.length * moduleWidth ∧
          modules[(x - left) / moduleWidth]? = some true then 255
        else 0) := by
  rw [cell?_barred moduleWidthPos modules left top barsHeight column row]
  simp only [isBar_iff moduleWidthPos, inside, and_true]

/-- The rows of the bars are rows of the mask, but no rows of the text. -/
theorem rows_apart
    (above : Bool)
    (lineHeight gap : Nat)
    (inside : (if above then lineHeight + gap else 0) ≤ y ∧
      y < (if above then lineHeight + gap else 0) + barsHeight) :
    y < barsHeight + (lineHeight + gap) ∧
      ¬ ((if above then 0 else barsHeight + gap) ≤ y ∧
        y < (if above then 0 else barsHeight + gap) + lineHeight) := by
  cases above with
  | true =>
      rw [if_pos rfl] at inside ⊢
      omega
  | false =>
      rw [if_neg Bool.false_ne_true] at inside ⊢
      omega

/-- Above and below the bars there is nothing but what is merged into the mask. -/
theorem cell?_overlay_of_outside
    (moduleWidthPos : 0 < moduleWidth)
    (modules : List Bool)
    (line : Mask)
    (lineLeft lineTop : Nat)
    (column : x < width)
    (row : y < height)
    (outside : ¬ (top ≤ y ∧ y < top + barsHeight)) :
    ((barred modules moduleWidth left top barsHeight width height).overlay line lineLeft
        lineTop).cell? x y =
      if lineLeft ≤ x ∧ x < lineLeft + line.width ∧ lineTop ≤ y ∧ y < lineTop + line.height then
        line.cell? (x - lineLeft) (y - lineTop)
      else some 0 := by
  have blank := cell?_barred moduleWidthPos modules left top barsHeight column row
  rw [if_neg fun bar => outside bar.2] at blank
  rw [Mask.cell?_overlay, blank]
  split
  · rename_i inside
    obtain ⟨coverage, found⟩ := Grid.exists_cell?
      (show x - lineLeft < line.width by omega) (show y - lineTop < line.height by omega)
    rw [Grid.cellD_eq, found, Option.getD_some]
    exact congrArg some (if_pos UInt8.zero_le)
  · rfl

end Rows

/-! ## Symbols -/

section Symbols

variable {modules : List Bool} {layout : BarLayout}

/-- Bars without text fill their mask. -/
theorem stamp_without_line
    (nonempty : modules ≠ [])
    (wide : 0 < layout.moduleWidth)
    (high : 0 < layout.height)
    (fits : modules.length * layout.moduleWidth ≤ maxDots ∧ layout.height ≤ maxDots) :
    stamp modules layout none =
      .ok ⟨barred modules layout.moduleWidth 0 0 layout.height
        (modules.length * layout.moduleWidth) layout.height, layout.height⟩ := by
  have barsPos : 0 < modules.length * layout.moduleWidth :=
    Nat.mul_pos (List.length_pos_iff.mpr nonempty) wide
  rw [stamp, Nat.max_eq_left wide, Nat.max_eq_left high, if_neg (by omega),
    Nat.max_eq_left barsPos]
  rfl

/-- Bars with a line of text, which is merged into rows of its own. -/
theorem stamp_with_line
    (nonempty : modules ≠ [])
    (wide : 0 < layout.moduleWidth)
    (high : 0 < layout.height)
    (fits : modules.length * layout.moduleWidth ≤ maxDots ∧ layout.height ≤ maxDots)
    (line : Mask) :
    let barsWidth := modules.length * layout.moduleWidth
    let band := line.height + 2 * layout.moduleWidth
    let width := max barsWidth line.width
    let barsTop := if layout.interpretationAbove then band else 0
    let lineTop :=
      if layout.interpretationAbove then 0 else layout.height + 2 * layout.moduleWidth
    stamp modules layout (some line) =
      .ok ⟨(barred modules layout.moduleWidth ((width - barsWidth) / 2) barsTop layout.height width
        (layout.height + band)).overlay line ((width - line.width) / 2) lineTop,
          barsTop + layout.height⟩ := by
  intro barsWidth band width barsTop lineTop
  have barsPos : 0 < modules.length * layout.moduleWidth :=
    Nat.mul_pos (List.length_pos_iff.mpr nonempty) wide
  have small : ¬ (maxDots < modules.length * layout.moduleWidth ∨ maxDots < layout.height) := by
    omega
  rw [stamp, Nat.max_eq_left wide, Nat.max_eq_left high, if_neg small, Nat.max_eq_left barsPos]
  rfl

/-- Bars cannot be drawn exactly if one of their sides has more than `maxDots` dots. -/
theorem stamp_eq_error_iff (line : Option Mask) (fault : Oversize) :
    stamp modules layout line = .error fault ↔
      (maxDots < modules.length * max layout.moduleWidth 1 ∨ maxDots < max layout.height 1) ∧
        fault = ⟨modules.length * max layout.moduleWidth 1, max layout.height 1⟩ := by
  rw [stamp]
  split
  · rename_i oversize
    constructor
    · rintro ⟨⟩
      exact ⟨oversize, rfl⟩
    · rintro ⟨-, rfl⟩
      rfl
  · rename_i fits
    constructor
    · intro impossible
      cases line <;> cases impossible
    · rintro ⟨oversize, -⟩
      exact absurd oversize fits

/-- Bars that are drawn have no side with more than `maxDots` dots. -/
theorem fits_of_stamp_eq_ok {line : Option Mask} {drawn : Stamp}
    (made : stamp modules layout line = .ok drawn) :
    modules.length * max layout.moduleWidth 1 ≤ maxDots ∧ max layout.height 1 ≤ maxDots := by
  by_contra tooLarge
  have fault : stamp modules layout line = .error _ :=
    (stamp_eq_error_iff line _).mpr ⟨by omega, rfl⟩
  rw [made] at fault
  cases fault

end Symbols

/--
Bars are drawn exactly, and the text never touches them.  A symbol has as many columns as the wider
of bars and text; in the rows of the bars, which end at the baseline, the dot at a column is ink
exactly if the module at this column is a bar.  All other rows are those of the text and of a gap of
two modules between text and bars; there the dots of the text are as they were, in the middle, and
the others are blank.  Bars cannot be drawn exactly if they have more than 32000 dots on one side.
No number leaves its range on the way.
-/
theorem stamp_draws_bars
    {modules : List Bool}
    {layout : BarLayout}
    (line : Option Mask)
    (nonempty : modules ≠ [])
    (wide : 0 < layout.moduleWidth)
    (high : 0 < layout.height) :
    let barsWidth := modules.length * layout.moduleWidth
    let gap := 2 * layout.moduleWidth
    let band := line.elim 0 fun text => text.height + gap
    let width := max barsWidth (line.elim 0 fun text => text.width)
    let barsLeft := (width - barsWidth) / 2
    let barsTop := if layout.interpretationAbove then band else 0
    (∀ fault, stamp modules layout line = .error fault ↔
        (32000 < barsWidth ∨ 32000 < layout.height) ∧ fault = ⟨barsWidth, layout.height⟩) ∧
      (∀ drawn, stamp modules layout line = .ok drawn →
        (drawn.mask.width = width ∧ drawn.mask.height = layout.height + band ∧
          drawn.baseline = barsTop + layout.height) ∧
        (∀ x y, x < width → barsTop ≤ y → y < barsTop + layout.height →
          drawn.mask.cell? x y =
            some (if barsLeft ≤ x ∧ x < barsLeft + barsWidth ∧
                modules[(x - barsLeft) / layout.moduleWidth]? = some true then 255
              else 0)) ∧
        ∀ x y, x < width → y < layout.height + band →
          ¬ (barsTop ≤ y ∧ y < barsTop + layout.height) →
            ∃ text, line = some text ∧
              let textLeft := (width - text.width) / 2
              let textTop := if layout.interpretationAbove then 0 else layout.height + gap
              drawn.mask.cell? x y =
                if textLeft ≤ x ∧ x < textLeft + text.width ∧
                    textTop ≤ y ∧ y < textTop + text.height then
                  text.cell? (x - textLeft) (y - textTop)
                else some 0) ∧
      (barsWidth < 2 ^ 64 → (∀ text ∈ line, text.width ≤ 32000 ∧ text.height ≤ 32000) →
        Checked.barStamp modules layout line = some (stamp modules layout line)) := by
  intro barsWidth gap band width barsLeft barsTop
  refine ⟨?_, ?_, ?_⟩
  · intro fault
    rw [stamp_eq_error_iff, Nat.max_eq_left wide, Nat.max_eq_left high]
    rfl
  · intro drawn made
    have fits := fits_of_stamp_eq_ok made
    rw [Nat.max_eq_left wide, Nat.max_eq_left high] at fits
    cases line with
    | none =>
        rw [stamp_without_line nonempty wide high fits] at made
        cases made
        have sameWidth : width = barsWidth := Nat.max_eq_left (Nat.zero_le barsWidth)
        have atLeft : barsLeft = 0 := by
          simp only [barsLeft, sameWidth, Nat.sub_self, Nat.zero_div]
        have atTop : barsTop = 0 := ite_self 0
        rw [sameWidth, atLeft, atTop]
        refine ⟨⟨width_draw .., height_draw .., (Nat.zero_add _).symm⟩, ?_, ?_⟩
        · intro x y column _ row
          have inRows : y < layout.height := Nat.lt_of_lt_of_eq row (Nat.zero_add _)
          exact cell?_barred_of_inside wide modules column inRows ⟨Nat.zero_le y, row⟩
        · intro x y _ row outside
          have inRows : y < layout.height := row
          omega
    | some text =>
        rw [stamp_with_line nonempty wide high fits] at made
        cases made
        refine ⟨⟨width_draw .., height_draw .., rfl⟩, ?_, ?_⟩
        · intro x y column topLe row
          obtain ⟨inMask, apart⟩ := rows_apart layout.interpretationAbove text.height gap
            ⟨topLe, row⟩
          rw [Mask.cell?_overlay, if_neg fun within => apart within.2.2]
          exact cell?_barred_of_inside wide modules column inMask ⟨topLe, row⟩
        · intro x y column row outside
          exact ⟨text, rfl, cell?_overlay_of_outside wide modules text _ _ column row outside⟩
  · intro countable lineFits
    apply Checked.barStamp_eq_some_of_fits
    · intro few
      rw [Nat.max_eq_left wide]
      exact countable
    · rw [Nat.max_eq_left wide]
      intro fits
      exact Nat.le_trans (Nat.le_mul_of_pos_left _ (List.length_pos_iff.mpr nonempty)) fits
    · exact lineFits

/-- Bars of three modules below a text that is wider than they are. -/
theorem stamp_draws_bars_of_wide_text :
    let modules := [true, false, true]
    let layout : BarLayout := ⟨.normal, 2, 3, true, true⟩
    let text : Mask := Mask.ofInk 9 1 fun x _ => x = 0
    (modules ≠ [] ∧ 0 < layout.moduleWidth ∧ 0 < layout.height) ∧
      ∃ drawn, stamp modules layout (some text) = .ok drawn ∧
        (drawn.mask.width = 9 ∧ drawn.mask.height = 8 ∧ drawn.baseline = 8) ∧
        drawn.mask.cell? 1 5 = some 255 ∧ drawn.mask.cell? 3 5 = some 0 ∧
        drawn.mask.cell? 0 0 = some 255 ∧ drawn.mask.cell? 0 1 = some 0 ∧
        Checked.barStamp modules layout (some text) = some (.ok drawn) := by
  intro modules layout text
  have nonempty : modules ≠ [] := by decide
  have wide : 0 < layout.moduleWidth := by decide
  have high : 0 < layout.height := by decide
  obtain ⟨drawn, made⟩ : ∃ drawn, stamp modules layout (some text) = .ok drawn := ⟨_, rfl⟩
  obtain ⟨-, shown, checked⟩ := stamp_draws_bars (some text) nonempty wide high
  obtain ⟨sides, bars, others⟩ := shown drawn made
  refine ⟨⟨nonempty, wide, high⟩, drawn, made, sides, ?_, ?_, ?_, ?_, ?_⟩
  · exact (bars 1 5 (by decide) (by decide) (by decide)).trans (by decide)
  · exact (bars 3 5 (by decide) (by decide) (by decide)).trans (by decide)
  · obtain ⟨_, same, dot⟩ := others 0 0 (by decide) (by decide) (by decide)
    cases same
    exact dot.trans (by decide)
  · obtain ⟨_, same, dot⟩ := others 0 1 (by decide) (by decide) (by decide)
    cases same
    exact dot.trans (by decide)
  · rw [checked (by decide) (by rintro _ ⟨⟩; decide), made]

end LabelPress.Bars
