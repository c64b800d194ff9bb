import LabelPress.Proofs.Text.Wrapping
import Mathlib.Order.Bounds.Basic

/-!
# Wrapping takes as few lines as possible

The pieces of a text can be laid out in many ways (`Layout`), of which wrapping is one.  If no part
of a line is wider than the line (`NeverShrinks`), then none of them has fewer lines: whatever is
laid out, wrapping has come at least as far in the text after as many lines
(`CutWhere.length_le_of_ahead`).

The main statement (`wrap_fewest_lines`) says so for every text in which there is something other
than spaces.  Blank text has no pieces and could do without any line, but it is wrapped into one.
-/

namespace LabelPress.Text

/-- A text is at least as wide as every part of it. -/
def NeverShrinks (measure : List Char → Nat) : Prop :=
  ∀ part text, part <:+: text → measure part ≤ measure text

/--
A way in which the pieces of a text are set in lines: no line is empty, and a line of two pieces or
more is not too wide.
-/
structure Layout
    (measure : List Char → Nat)
    (width : Nat)
    (text : List Char)
    (lines : List (List Piece)) : Prop where
  pieces : PiecesOf text lines.flatten
  nonempty : [] ∉ lines
  fits : ∀ line ∈ lines, line.length = 1 ∨ measure (lineOf line) ≤ width

section Lines

variable {measure : List Char → Nat} {width : Nat}

/-- Behind other pieces, pieces have the characters of their line at the end. -/
theorem lineOf_suffix_flatMap_behind (line : List Piece) :
    lineOf line <:+ line.flatMap Piece.behind := by
  cases line with
  | nil =>
      exact List.suffix_rfl
  | cons first rest =>
      rw [lineOf, List.flatMap_cons]
      have text : first.text <:+ first.behind := by
        rw [Piece.behind]
        split
        · exact List.suffix_cons ' ' first.text
        · exact List.suffix_rfl
      obtain ⟨gap, behind⟩ := text
      exact ⟨gap, by rw [← List.append_assoc, behind]⟩

theorem lineOf_prefix_append
    (line more : List Piece) :
    lineOf line <+: lineOf (line ++ more) := by
  cases line with
  | nil =>
      exact List.nil_prefix
  | cons first rest =>
      rw [List.cons_append, lineOf, lineOf, List.flatMap_append, ← List.append_assoc]
      exact List.prefix_append _ _

theorem lineOf_suffix_append
    (front line : List Piece) :
    lineOf line <:+ lineOf (front ++ line) := by
  cases front with
  | nil =>
      exact List.suffix_rfl
  | cons first rest =>
      rw [List.cons_append, lineOf, List.flatMap_append, ← List.append_assoc]
      exact (lineOf_suffix_flatMap_behind line).trans (List.suffix_append _ _)

/-- Pieces in the middle of a line look there as they do in a line of their own. -/
theorem lineOf_infix_append
    (front line more : List Piece) :
    lineOf line <:+: lineOf (front ++ line ++ more) :=
  (lineOf_suffix_append front line).isInfix.trans (lineOf_prefix_append _ more).isInfix

/-- A line that is allowed is not too wide with the first of its last pieces. -/
theorem not_overflows_of_fits
    (neverShrinks : NeverShrinks measure)
    {front line more : List Piece}
    {piece : Piece}
    (nonempty : line ≠ [])
    (fits : (front ++ line ++ piece :: more).length = 1 ∨
      measure (lineOf (front ++ line ++ piece :: more)) ≤ width) :
    ¬ Overflows measure width line piece := by
  have pieces := List.length_pos_iff.mpr nonempty
  have narrow : measure (lineOf (front ++ line ++ piece :: more)) ≤ width := by
    rcases fits with single | narrow
    · simp only [List.length_append, List.length_cons] at single
      omega
    · exact narrow
  have inside : lineOf (line ++ [piece]) <:+: lineOf (front ++ line ++ piece :: more) := by
    simpa using lineOf_infix_append front (line ++ [piece]) more
  exact Nat.not_lt.mpr ((neverShrinks _ _ inside).trans narrow)

/--
Lines that are filled as far as they go are not more than other lines for the same pieces, even if
the others begin with some pieces more.
-/
theorem CutWhere.length_le_of_ahead
    (neverShrinks : NeverShrinks measure)
    {lines others : List (List Piece)}
    (ahead : List Piece)
    (cut : CutWhere (Overflows measure width) lines)
    (fits : ∀ line ∈ others, line.length = 1 ∨ measure (lineOf line) ≤ width)
    (same : ahead ++ lines.flatten = others.flatten) :
    lines.length ≤ others.length := by
  -- Line by line of the others: what is left of the filled lines begins no earlier than they do.
  induction others generalizing lines ahead with
  | nil =>
      cases lines with
      | nil =>
          exact Nat.le_refl 0
      | cons line lines =>
          have empty := (List.append_eq_nil_iff.mp same).2
          exact absurd (List.append_eq_nil_iff.mp empty).1 cut.ne_nil
  | cons other others ih =>
      cases lines with
      | nil =>
          exact Nat.zero_le _
      | cons line lines =>
          have laterFits := fun line member => fits line (List.mem_cons_of_mem other member)
          rw [List.flatten_cons, List.flatten_cons, ← List.append_assoc] at same
          rcases List.append_eq_append_iff.mp same with
            ⟨more, otherEq, behind⟩ | ⟨more, -, behind⟩
          · cases more with
            | nil =>
                exact Nat.succ_le_succ (ih [] cut.tail laterFits behind)
            | cons piece more =>
                -- The other line would go on with a piece that the filled line has no room for.
                rw [otherEq] at fits
                exact absurd (cut.ends_of_flatten behind)
                  (not_overflows_of_fits neverShrinks cut.ne_nil (fits _ List.mem_cons_self))
          · exact Nat.succ_le_succ (ih more cut.tail laterFits behind.symm)

/-- Filled lines are a layout. -/
theorem CutWhere.layout
    {text : List Char}
    {lines : List (List Piece)}
    (cut : CutWhere (Overflows measure width) lines)
    (found : PiecesOf text lines.flatten) :
    Layout measure width text lines where
  pieces := found
  nonempty := cut.nonempty
  fits := by
    intro line member
    have notEmpty : line ≠ [] := by
      rintro rfl
      exact cut.nonempty member
    have pieces := List.length_pos_iff.mpr notEmpty
    by_cases single : line.length = 1
    · exact Or.inl single
    · exact Or.inr (cut.fits member (by omega))

end Lines

/-- A text has pieces if not all of it is spaces. -/
theorem PiecesOf.eq_nil_iff
    {text : List Char}
    {found : List Piece}
    (piecesOf : PiecesOf text found) :
    found = [] ↔ ∀ character ∈ text, character = ' ' := by
  obtain ⟨solid, characters⟩ := piecesOf.solid
  have blank : text.filter (· ≠ ' ') = [] ↔ ∀ character ∈ text, character = ' ' := by
    simp
  rw [← blank, ← characters]
  cases found with
  | nil =>
      simp
  | cons piece found =>
      simp [(solid piece List.mem_cons_self).1]

/--
Wrapping takes as few lines as possible, if no text is narrower than a part of it.  A text that is
not blank can be laid out in as many lines as it is wrapped into, and in no fewer.  A blank text is
wrapped into one line, which is empty.
-/
theorem wrap_fewest_lines
    {measure : List Char → Nat}
    (neverShrinks : NeverShrinks measure)
    {width : Nat}
    (wide : 0 < width)
    (text : List Char) :
    ((∃ character ∈ text, character ≠ ' ') →
        IsLeast {count | ∃ lines, Layout measure width text lines ∧ lines.length = count}
          (wrap measure width text).length) ∧
      ((∀ character ∈ text, character = ' ') → wrap measure width text = [[]]) := by
  have found := piecesOf_pieces text
  obtain ⟨lines, all, cut, filled⟩ := exists_groups measure width found.solid.1
  have wrapped : wrap measure width text = linesOf lines := by
    rw [wrap, if_neg (by omega), filled]
  rw [← all] at found
  constructor
  · rintro ⟨character, member, notSpace⟩
    have notEmpty : lines ≠ [] := by
      rintro rfl
      exact notSpace (found.eq_nil_iff.mp rfl character member)
    have count : (wrap measure width text).length = lines.length := by
      rw [wrapped]
      cases lines with
      | nil =>
          exact absurd rfl notEmpty
      | cons line lines =>
          exact List.length_map _
    rw [count]
    refine ⟨⟨lines, cut.layout found, rfl⟩, ?_⟩
    rintro _ ⟨others, layout, rfl⟩
    exact cut.length_le_of_ahead neverShrinks [] layout.fits (layout.pieces.unique found).symm
  · intro blank
    have empty := found.eq_nil_iff.mpr blank
    cases lines with
    | nil =>
        exact wrapped
    | cons line lines =>
        exact absurd (List.append_eq_nil_iff.mp empty).1 cut.ne_nil

/-- No text is narrower than a part of it if all characters have the same width. -/
theorem neverShrinks_mul_length (dots : Nat) : NeverShrinks fun text => dots * text.length :=
  fun _ _ inside => Nat.mul_le_mul_left dots inside.length_le

/-- A text that is wrapped into three lines, and laid out in four. -/
theorem wrap_fewest_lines_of_hyphens :
    let measure := fun line : List Char => 10 * line.length
    let text := "a-well-known  fact".toList
    NeverShrinks measure ∧ 0 < 70 ∧ (∃ character ∈ text, character ≠ ' ') ∧
      (∃ lines, Layout measure 70 text lines ∧ lines.length = 4) ∧
      (wrap measure 70 text).length = 3 ∧ 3 ≤ 4 := by
  intro measure text
  have neverShrinks : NeverShrinks measure := neverShrinks_mul_length 10
  have notBlank : ∃ character ∈ text, character ≠ ' ' := ⟨'a', by decide, by decide⟩
  have laidOut : Layout measure 70 text
      [[⟨true, "a-".toList⟩], [⟨false, "well-".toList⟩], [⟨false, "known".toList⟩],
        [⟨true, "fact".toList⟩]] := by
    have four : pieces text = [⟨true, "a-".toList⟩, ⟨false, "well-".toList⟩,
        ⟨false, "known".toList⟩, ⟨true, "fact".toList⟩] := by
      decide
    have found := piecesOf_pieces text
    rw [four] at found
    exact ⟨found, by decide, by simp⟩
  have lines : (wrap measure 70 text).length = 3 := by
    decide
  have fewest := (wrap_fewest_lines neverShrinks (by decide : 0 < 70) text).1 notBlank
  rw [lines] at fewest
  exact ⟨neverShrinks, by decide, notBlank, ⟨_, laidOut, rfl⟩, lines, fewest.2 ⟨_, laidOut, rfl⟩⟩

/-- The empty text can be laid out without a line, and is wrapped into one. -/
theorem wrap_empty_one_line :
    let measure := fun line : List Char => 10 * line.length
    NeverShrinks measure ∧ 0 < 100 ∧ Layout measure 100 [] [] ∧
      ([] : List (List Piece)).length < (wrap measure 100 []).length := by
  intro measure
  refine ⟨neverShrinks_mul_length 10, by decide, ⟨piecesOf_pieces [], by decide, by simp⟩, ?_⟩
  decide

end LabelPress.Text
