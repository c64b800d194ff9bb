import Mathlib.Algebra.Ring.Parity
import LabelPress.Proofs.Drawing.Painting

/-!
# The order of painting

Fields are painted one over another, so their order may decide what is seen.  It decides nothing
between fields that paint alike, all black, all white or all reversing, however they overlap and
whatever is cut off: each of them paints a dot once or leaves it alone (`dotAfter_eq`), and what
both paint is the same for either order (`dotAfter_right_comm`).  A field that reverses its dots
undoes itself (`dotAfter_twice`), since a dot that is reversed twice is the dot it was.  So where
all fields reverse, a dot counts them: it is black if an odd number of fields covers it
(`foldl_dotAfter_reversed`).  The main statement is `draw_order`.
-/

namespace LabelPress.Drawing

/-! ## Dots -/

section Dots

variable (font : Option Font) (dotsPerMm : Int) (x y : Nat)

/-- Whether the turned stamp of an element, put at its place, covers the dot. -/
def coversDot (element : Element) : Bool :=
  match stamp? font dotsPerMm element.content with
  | .ok (some stamp) =>
    let position := stamp.position element.content.turn element.origin
    Mask.covers (stamp.mask.turn element.content.turn) position.1 position.2 x y
  | _ => false

/-- An element paints the dots that it covers, each of them once. -/
theorem dotAfter_eq (dot : UInt8) (element : Element) :
    dotAfter font dotsPerMm x y dot element =
      if coversDot font dotsPerMm x y element then element.paint.apply dot else dot := by
  rw [apply_paint, dotAfter, coversDot]
  rcases stamp? font dotsPerMm element.content with fault | _ | stamp <;> rfl

theorem reverse_reverse (dot : UInt8) :
    Paint.reverse.apply (Paint.reverse.apply dot) = dot := by
  rw [Paint.apply, Paint.apply]
  grind

/-- Elements that paint alike may change places. -/
theorem dotAfter_right_comm
    {first second : Element}
    (alike : first.paint = second.paint)
    (dot : UInt8) :
    dotAfter font dotsPerMm x y (dotAfter font dotsPerMm x y dot first) second =
      dotAfter font dotsPerMm x y (dotAfter font dotsPerMm x y dot second) first := by
  simp only [dotAfter_eq, alike]
  by_cases byFirst : coversDot font dotsPerMm x y first = true
  · by_cases bySecond : coversDot font dotsPerMm x y second = true
    · rw [if_pos byFirst, if_pos bySecond, if_pos bySecond, if_pos byFirst]
    · rw [if_neg bySecond, if_neg bySecond]
  · rw [if_neg byFirst, if_neg byFirst]

theorem paint_of_reverse {element : Element} (reversed : element.reverse = true) :
    element.paint = .reverse := by
  rw [Element.paint, reversed]
  rfl

/-- An element that reverses its dots undoes itself. -/
theorem dotAfter_twice
    {element : Element}
    (reversed : element.reverse = true)
    (dot : UInt8) :
    dotAfter font dotsPerMm x y (dotAfter font dotsPerMm x y dot element) element = dot := by
  simp only [dotAfter_eq, paint_of_reverse reversed]
  split
  · exact reverse_reverse dot
  · rfl

/-- Elements that reverse their dots change a dot if an odd number of them covers it. -/
theorem foldl_dotAfter_reversed
    (elements : List Element)
    (reversed : ∀ element ∈ elements, element.reverse = true)
    (dot : UInt8) :
    elements.foldl (dotAfter font dotsPerMm x y) dot =
      if Odd (elements.countP (coversDot font dotsPerMm x y)) then Paint.reverse.apply dot
      else dot := by
  induction elements generalizing dot with
  | nil =>
      rfl
  | cons element elements ih =>
      have first : element.paint = .reverse :=
        paint_of_reverse (reversed element List.mem_cons_self)
      have rest := ih fun other member => reversed other (List.mem_cons_of_mem element member)
      rw [List.foldl_cons, rest, dotAfter_eq, first]
      by_cases covered : coversDot font dotsPerMm x y element = true
      · -- The element reverses the dot before all others do, and makes their number even or odd.
        rw [if_pos covered, List.countP_cons_of_pos covered, reverse_reverse]
        by_cases odd : Odd (elements.countP (coversDot font dotsPerMm x y))
        · rw [if_pos odd, if_neg (Nat.odd_add_one.not_left.mpr odd)]
        · rw [if_neg odd, if_pos (Nat.odd_add_one.mpr odd)]
      · rw [if_neg covered, List.countP_cons_of_neg covered]

end Dots

/-! ## Labels -/

theorem elementFault?_eq_none_iff (label : Label) :
    elementFault? label = none ↔
      ∀ element ∈ label.elements, encodingFault? element.content = none := by
  rw [elementFault?, Option.map_eq_none_iff, List.findSome?_eq_none_iff]
  simp only [Array.mem_toList_iff]

/-- The elements of a label that is drawn can all be encoded. -/
theorem encodable_of_draw
    {fonts : FontSource Id}
    {label : Label}
    {options : DrawOptions}
    {canvas : Canvas}
    (drawn : Id.run (draw fonts label options) = .ok canvas) :
    ∀ element ∈ label.elements, encodingFault? element.content = none := by
  obtain ⟨-, -, -, noElementFault⟩ := firstFault?_eq_none_iff.mp (draw_eq_ok drawn).1
  exact (elementFault?_eq_none_iff label).mp noElementFault

/-- A canvas is the drawing if its sides are those that were asked for and its dots are painted. -/
theorem draw_of_dots
    {fonts : FontSource Id}
    {label : Label}
    {options : DrawOptions}
    {canvas : Canvas}
    (noFault : firstFault? fonts label options = none)
    (width : (canvas.width : Int) = dots options.widthMm options.dotsPerMm label.printWidth)
    (height : (canvas.height : Int) = dots options.heightMm options.dotsPerMm label.length)
    (painted : ∀ x y, x < canvas.width → y < canvas.height →
      canvas.cell? x y = some (placedDot label.inverted canvas.width canvas.height
        (paintedDot (fontFor? fonts options) options.dotsPerMm label.elements.toList) x y)) :
    Id.run (draw fonts label options) = .ok canvas := by
  rcases draw_cases fonts label options with
    ⟨fault, found, -⟩ | ⟨-, drawn, made, drawnWidth, drawnHeight, dots⟩
  · rw [noFault] at found
    cases found
  · have widths : drawn.width = canvas.width := Int.ofNat.inj (drawnWidth.trans width.symm)
    have heights : drawn.height = canvas.height := Int.ofNat.inj (drawnHeight.trans height.symm)
    rw [made, Grid.eq_of_cell? widths heights]
    intro x y column row
    rw [dots x y (by omega) (by omega), painted x y column row, widths, heights]

/-- Elements that paint the same dots make the same drawing, if their data can be encoded. -/
theorem draw_of_same_dots
    {fonts : FontSource Id}
    {label : Label}
    {options : DrawOptions}
    {elements others : Array Element}
    {canvas : Canvas}
    (drawn : Id.run (draw fonts { label with elements := elements } options) = .ok canvas)
    (encodable : ∀ element ∈ others, encodingFault? element.content = none)
    (same : ∀ font x y, paintedDot font options.dotsPerMm others.toList x y =
      paintedDot font options.dotsPerMm elements.toList x y) :
    Id.run (draw fonts { label with elements := others } options) = .ok canvas := by
  obtain ⟨noFault, width, height, dots⟩ := draw_eq_ok drawn
  have noElementFault := (elementFault?_eq_none_iff { label with elements := others }).mpr encodable
  -- Sizes and font have no fault, for they do not depend on the elements.
  obtain ⟨noDensityFault, noSizeFault, noFontFault, -⟩ := firstFault?_eq_none_iff.mp noFault
  have noOtherFault : firstFault? fonts { label with elements := others } options = none :=
    firstFault?_eq_none_iff.mpr ⟨noDensityFault, noSizeFault, noFontFault, noElementFault⟩
  refine draw_of_dots noOtherFault width height ?_
  intro x y column row
  rw [dots x y column row]
  simp only [placedDot, same]

section Labels

variable (fonts : FontSource Id) (label : Label) (options : DrawOptions)

/-- Two neighbours that paint alike may change places. -/
theorem draw_swap
    (front back : Array Element)
    {first second : Element}
    (alike : first.paint = second.paint)
    {canvas : Canvas}
    (drawn : Id.run (draw fonts { label with elements := front ++ #[first, second] ++ back }
      options) = .ok canvas) :
    Id.run (draw fonts { label with elements := front ++ #[second, first] ++ back } options) =
      .ok canvas := by
  have encodable := encodable_of_draw drawn
  refine draw_of_same_dots drawn ?_ ?_
  · intro element member
    refine encodable element ?_
    simpa [or_comm, or_left_comm] using member
  · intro font x y
    simp only [paintedDot, Array.toList_append, List.foldl_append, List.foldl_cons, List.foldl_nil]
    rw [dotAfter_right_comm font options.dotsPerMm x y alike]

/-- An element that reverses its dots may be left out or put in twice in a row. -/
theorem draw_twice_iff
    (front back : Array Element)
    {element : Element}
    (reversed : element.reverse = true)
    (canvas : Canvas) :
    Id.run (draw fonts { label with elements := front ++ #[element, element] ++ back } options) =
        .ok canvas ↔
      encodingFault? element.content = none ∧
        Id.run (draw fonts { label with elements := front ++ back } options) = .ok canvas := by
  have same : ∀ font x y,
      paintedDot font options.dotsPerMm (front ++ #[element, element] ++ back).toList x y =
        paintedDot font options.dotsPerMm (front ++ back).toList x y := by
    intro font x y
    simp only [paintedDot, Array.toList_append, List.foldl_append, List.foldl_cons, List.foldl_nil]
    rw [dotAfter_twice font options.dotsPerMm x y reversed]
  constructor
  · intro drawn
    have encodable := encodable_of_draw drawn
    refine ⟨encodable element (by simp), ?_⟩
    refine draw_of_same_dots drawn ?_ fun font x y => (same font x y).symm
    intro other member
    refine encodable other ?_
    rw [Array.append_assoc]
    rcases Array.mem_append.mp member with inFront | inBack
    · exact Array.mem_append_left _ inFront
    · exact Array.mem_append_right _ (Array.mem_append_right _ inBack)
  · rintro ⟨noFault, drawn⟩
    have encodable := encodable_of_draw drawn
    refine draw_of_same_dots drawn ?_ same
    intro other member
    simp only [Array.mem_append, List.mem_toArray, List.mem_cons, List.not_mem_nil, or_false,
      or_self] at member
    rcases member with (member | rfl) | member
    · exact encodable other (Array.mem_append_left back member)
    · exact noFault
    · exact encodable other (Array.mem_append_right front member)

end Labels

/--
The order of painting only matters between different paints.  Two neighbours that paint alike may
change places in a label that can be drawn.  A field that reverses its dots may be put in twice in
a row: the drawing stays the same, as far as the field can be drawn at all.  And on an upright label
on which all fields reverse their dots, a dot is black exactly if an odd number of fields covers it.
-/
theorem draw_order
    (fonts : FontSource Id)
    (label : Label)
    (options : DrawOptions)
    (front back : Array Element) :
    (∀ first second canvas, first.paint = second.paint →
      Id.run (draw fonts { label with elements := front ++ #[first, second] ++ back } options) =
          .ok canvas →
        Id.run (draw fonts { label with elements := front ++ #[second, first] ++ back } options) =
          .ok canvas) ∧
      (∀ element canvas, element.reverse = true →
        (Id.run (draw fonts { label with elements := front ++ #[element, element] ++ back }
            options) = .ok canvas ↔
          encodingFault? element.content = none ∧
            Id.run (draw fonts { label with elements := front ++ back } options) = .ok canvas)) ∧
      (∀ canvas, label.inverted = false →
        (∀ element ∈ label.elements, element.reverse = true) →
        Id.run (draw fonts label options) = .ok canvas →
          ∃ font, Id.run (loadFont fonts options.fontPath) = .ok font ∧
            ∀ x y, x < canvas.width → y < canvas.height →
              canvas.cell? x y = some
                (if Odd (label.elements.countP (coversDot font options.dotsPerMm x y)) then black
                else white)) := by
  refine ⟨?_, ?_, ?_⟩
  · intro first second canvas alike drawn
    exact draw_swap fonts label options front back alike drawn
  · intro element canvas reversed
    exact draw_twice_iff fonts label options front back reversed canvas
  · intro canvas upright reversed drawn
    obtain ⟨noFault, -, -, dots⟩ := draw_eq_ok drawn
    obtain ⟨-, -, noFontFault, -⟩ := firstFault?_eq_none_iff.mp noFault
    have loaded := loadFont_eq_ok noFontFault
    generalize fontFor? fonts options = font at dots loaded
    refine ⟨font, loaded, ?_⟩
    intro x y column row
    have all : ∀ element ∈ label.elements.toList, element.reverse = true := fun element member =>
      reversed element (Array.mem_toList_iff.mp member)
    have painted : paintedDot font options.dotsPerMm label.elements.toList x y =
        if Odd (label.elements.toList.countP (coversDot font options.dotsPerMm x y)) then black
        else white := foldl_dotAfter_reversed font options.dotsPerMm x y _ all white
    rw [dots x y column row, upright, ← Array.countP_toList, ← painted]
    rfl

/-- Two boxes that reverse their dots and share the middle one of three. -/
theorem draw_order_of_boxes :
    let left : Element := ⟨⟨0, 0, .topLeft⟩, true, .box 2 1 1 .black 0⟩
    let right : Element := ⟨⟨1, 0, .topLeft⟩, true, .box 2 1 1 .black 0⟩
    let label : Label := { printWidth := some 3, length := some 1, elements := #[left, right] }
    let fonts : FontSource Id := { isFile := fun _ => pure false, load := fun _ => pure (.ok []) }
    let canvas : Canvas := ⟨3, 1, #[0, 255, 0], rfl⟩
    let drawn (elements : Array Element) :=
      Id.run (draw fonts { label with elements := elements } { dotsPerMm := 8 })
    drawn #[left, right] = .ok canvas ∧ drawn #[right, left] = .ok canvas ∧
      drawn #[left, left] = .ok (Canvas.blank 3 1) ∧
      ∀ x y, x < 3 → y < 1 →
        canvas.cell? x y =
          some (if Odd (#[left, right].countP (coversDot none 8 x y)) then black else white) := by
  intro left right label fonts canvas drawn
  have both : drawn #[left, right] = .ok canvas := by
    subst drawn label left right canvas
    with_unfolding_all rfl
  have empty : drawn #[] = .ok (Canvas.blank 3 1) := by
    subst drawn label left right
    with_unfolding_all rfl
  obtain ⟨swap, twice, parity⟩ := draw_order fonts label { dotsPerMm := 8 } #[] #[]
  refine ⟨both, swap left right canvas rfl both,
    (twice left (Canvas.blank 3 1) rfl).mpr ⟨rfl, empty⟩, ?_⟩
  obtain ⟨font, loaded, dots⟩ := parity canvas rfl (by simp [label, left, right]) both
  have noFont : font = none := (Except.ok.inj loaded).symm
  rw [noFont] at dots
  exact dots

end LabelPress.Drawing
