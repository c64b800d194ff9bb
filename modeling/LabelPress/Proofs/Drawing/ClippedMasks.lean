import LabelPress.Drawing
import LabelPress.Proofs.Drawing.CheckedBars

/-!
# Filling and merging masks

Filling a rectangle and merging a mask are loops that write dot after dot, with places in words of
32 bits.  Here it is said what becomes of every dot of the mask, and that no other dot is ever asked
for: the end of a rectangle stops at the largest word instead of starting again at zero, and a
merged mask has to end within the words.

A line of text beside bars is the one mask that is merged.  It has at most `maxDots` dots on each
side, whatever the font (`sides_interpretation`), so that it ends within the words.  The main
statement (`fill_and_merge_clipped`) puts the three together.
-/

namespace LabelPress.Checked

/-! ## Dots -/

/-- A filled rectangle is all ink, and every other dot is as before. -/
theorem fillRect_dots {mask : Mask} (widthLt : mask.width < 2 ^ 32)
    (heightLt : mask.height < 2 ^ 32) (x y width height : Nat) :
    ∃ filled, fillRect mask x y width height = some filled ∧
      HasSides mask.width mask.height filled ∧
      ∀ column row, column < mask.width → row < mask.height →
        (InRect x y width height (column, row) → filled.cell? column row = some 255) ∧
        (¬InRect x y width height (column, row) →
          filled.cell? column row = mask.cell? column row) := by
  obtain ⟨filled, done, sides, dots⟩ :=
    changes_fillRect widthLt heightLt x y width height mask ⟨rfl, rfl⟩
  refine ⟨filled, done, sides, ?_⟩
  intro column row columnLt rowLt
  refine ⟨?_, (dots (column, row)).2⟩
  intro inside
  obtain ⟨old, found⟩ := Grid.exists_cell? columnLt rowLt
  have inked := (dots (column, row)).1 inside
  rw [cellAt, cellAt, found] at inked
  exact inked

/-- Where a mask is merged the greater coverage counts, and every other dot is as before. -/
theorem overlay_dots (mask : Mask) {merged : Mask} {x y : Nat}
    (widthFits : x + merged.width ≤ 2 ^ 32) (heightFits : y + merged.height ≤ 2 ^ 32) :
    ∃ overlaid, overlay mask merged x y = some overlaid ∧
      HasSides mask.width mask.height overlaid ∧
      ∀ column row, column < mask.width → row < mask.height →
        (InRect x y merged.width merged.height (column, row) →
          ∃ old new, mask.cell? column row = some old ∧
            merged.cell? (column - x) (row - y) = some new ∧
            overlaid.cell? column row = some (max old new)) ∧
        (¬InRect x y merged.width merged.height (column, row) →
          overlaid.cell? column row = mask.cell? column row) := by
  refine ⟨mask.overlay merged x y, overlay_eq_some mask widthFits heightFits, ⟨rfl, rfl⟩, ?_⟩
  intro column row columnLt rowLt
  rw [Mask.cell?_overlay]
  constructor
  · rintro ⟨⟨leftLe, right⟩, topLe, bottom⟩
    obtain ⟨old, oldFound⟩ := Grid.exists_cell? columnLt rowLt
    obtain ⟨new, newFound⟩ := Grid.exists_cell?
      (show column - x < merged.width by omega) (show row - y < merged.height by omega)
    refine ⟨old, new, oldFound, newFound, ?_⟩
    rw [if_pos ⟨leftLe, right, topLe, bottom⟩, oldFound, Grid.cellD_eq, newFound]
    rfl
  · intro outside
    rw [if_neg]
    rintro ⟨leftLe, right, topLe, bottom⟩
    exact outside ⟨⟨leftLe, right⟩, topLe, bottom⟩

/-! ## Lines of text -/

theorem sides_drawText (face : Typesetting.Face) (mask : Mask) (x y : Int) (text : List Char) :
    HasSides mask.width mask.height (Typesetting.drawText face mask x y text) := by
  have each : ∀ (pen : Float32) (last : Option Nat) (drawn : Mask),
      HasSides mask.width mask.height drawn →
        HasSides mask.width mask.height (Typesetting.drawFrom face x y pen last drawn text) := by
    induction text with
    | nil =>
        intro pen last drawn sides
        exact sides
    | cons character text ih =>
        intro pen last drawn sides
        unfold Typesetting.drawFrom
        dsimp only
        cases face.font.outline? (face.font.glyph character) with
        | none =>
            exact ih _ _ drawn sides
        | some outline =>
            exact ih _ _ _ sides
  exact each 0 none mask ⟨rfl, rfl⟩

theorem clampSide_le (dots : Int) : clampSide dots ≤ maxDots := by
  have limit : maxDots = 32000 := rfl
  unfold clampSide
  omega

/-- A line of text beside bars is no larger than a label. -/
theorem sides_interpretation {font : Option Font} {layout : BarLayout} {text : List Char} :
    ∀ mask ∈ Drawing.interpretation font layout text,
      mask.width ≤ maxDots ∧ mask.height ≤ maxDots := by
  intro mask member
  unfold Drawing.interpretation at member
  split at member
  · split at member
    · cases member
      constructor
      · rw [Typesetting.line, (sides_drawText ..).1]
        exact clampSide_le _
      · rw [Typesetting.line, (sides_drawText ..).2]
        exact clampSide_le _
    · cases member
  · cases member

/-! ## Both operations -/

/--
Filling and merging are clipped to the mask.  A rectangle in words of 32 bits covers exactly the
dots between its corners, as numbers, and leaves the others alone; a merged mask that ends within
the words gives every dot below it the greater of two coverages, and leaves the others alone.  No
dot outside of a mask is asked for.  The line of text beside bars, in any font, ends within the
words.
-/
theorem fill_and_merge_clipped :
    (∀ (mask : Mask) (x y width height : UInt32),
        mask.width < 2 ^ 32 → mask.height < 2 ^ 32 →
          ∃ filled, fillRect mask x.toNat y.toNat width.toNat height.toNat = some filled ∧
            HasSides mask.width mask.height filled ∧
            ∀ column row, column < mask.width → row < mask.height →
              (InRect x.toNat y.toNat width.toNat height.toNat (column, row) →
                filled.cell? column row = some 255) ∧
              (¬InRect x.toNat y.toNat width.toNat height.toNat (column, row) →
                filled.cell? column row = mask.cell? column row)) ∧
      (∀ (mask merged : Mask) (x y : UInt32),
        x.toNat + merged.width ≤ 2 ^ 32 → y.toNat + merged.height ≤ 2 ^ 32 →
          ∃ overlaid, overlay mask merged x.toNat y.toNat = some overlaid ∧
            HasSides mask.width mask.height overlaid ∧
            ∀ column row, column < mask.width → row < mask.height →
              (InRect x.toNat y.toNat merged.width merged.height (column, row) →
                ∃ old new, mask.cell? column row = some old ∧
                  merged.cell? (column - x.toNat) (row - y.toNat) = some new ∧
                  overlaid.cell? column row = some (max old new)) ∧
              (¬InRect x.toNat y.toNat merged.width merged.height (column, row) →
                overlaid.cell? column row = mask.cell? column row)) ∧
      ∀ (font : Option Font) (modules : List Bool) (layout : BarLayout) (text : List Char),
        modules ≠ [] → modules.length * max layout.moduleWidth 1 < 2 ^ 64 →
          let line := Drawing.interpretation font layout text
          barStamp modules layout line = some (Bars.stamp modules layout line) := by
  refine ⟨?_, ?_, ?_⟩
  · intro mask x y width height widthLt heightLt
    exact fillRect_dots widthLt heightLt _ _ _ _
  · intro mask merged x y widthFits heightFits
    exact overlay_dots mask widthFits heightFits
  · intro font modules layout text nonempty countable
    refine barStamp_eq_some_of_fits (fun _ => countable) ?_ sides_interpretation
    exact Nat.le_trans (Nat.le_mul_of_pos_left _ (List.length_pos_iff.mpr nonempty))

/-- A rectangle that ends behind the largest word, and a mask that reaches over the edge. -/
theorem fill_and_merge_clipped_over_edges :
    let mask : Mask := Mask.blank 3 2
    let merged : Mask := Mask.ofInk 2 1 fun x _ => x = 0
    let left : UInt32 := 2
    let top : UInt32 := 1
    let wide : UInt32 := 4294967295
    let bars : BarLayout := ⟨.normal, 2, 3, true, true⟩
    (mask.width < 2 ^ 32 ∧ mask.height < 2 ^ 32 ∧ left.toNat + merged.width ≤ 2 ^ 32 ∧
        top.toNat + merged.height ≤ 2 ^ 32 ∧ [true].length * max bars.moduleWidth 1 < 2 ^ 64) ∧
      (∃ filled, fillRect mask left.toNat top.toNat wide.toNat wide.toNat = some filled ∧
        filled.cell? 2 1 = some 255 ∧ filled.cell? 1 1 = some 0 ∧ filled.cell? 2 0 = some 0) ∧
      (∃ overlaid, overlay mask merged left.toNat top.toNat = some overlaid ∧
        overlaid.cell? 2 1 = some 255 ∧ overlaid.cell? 0 1 = some 0) ∧
      barStamp [true] bars none = some (Bars.stamp [true] bars none) := by
  intro mask merged left top wide bars
  have widthLt : mask.width < 2 ^ 32 := by decide
  have heightLt : mask.height < 2 ^ 32 := by decide
  have widthFits : left.toNat + merged.width ≤ 2 ^ 32 := by decide
  have heightFits : top.toNat + merged.height ≤ 2 ^ 32 := by decide
  have countable : [true].length * max bars.moduleWidth 1 < 2 ^ 64 := by decide
  obtain ⟨fill, merge, line⟩ := fill_and_merge_clipped
  obtain ⟨filled, fillDone, -, filledDots⟩ := fill mask left top wide wide widthLt heightLt
  obtain ⟨overlaid, mergeDone, -, mergedDots⟩ := merge mask merged left top widthFits heightFits
  refine ⟨⟨widthLt, heightLt, widthFits, heightFits, countable⟩,
    ⟨filled, fillDone, ?_, ?_, ?_⟩, ⟨overlaid, mergeDone, ?_, ?_⟩,
    line none [true] bars [] (by decide) countable⟩
  · exact (filledDots 2 1 (by decide) (by decide)).1 (by unfold InRect; decide)
  · exact ((filledDots 1 1 (by decide) (by decide)).2 (by unfold InRect; decide)).trans (by decide)
  · exact ((filledDots 2 0 (by decide) (by decide)).2 (by unfold InRect; decide)).trans (by decide)
  · obtain ⟨old, new, oldFound, newFound, greater⟩ :=
      (mergedDots 2 1 (by decide) (by decide)).1 (by unfold InRect; decide)
    cases oldFound
    cases newFound
    exact greater
  · exact ((mergedDots 0 1 (by decide) (by decide)).2 (by unfold InRect; decide)).trans (by decide)

end LabelPress.Checked
