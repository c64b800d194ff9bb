import LabelPress.Label
import LabelPress.Markup.Error
import LabelPress.Text.Blank
import LabelPress.Text.Integer

/-!
# Parameters of a command

Parameters are separated by commas and trimmed.  A parameter that is absent or blank has no value.
Numbers of dots are at most `maxDots` in either direction; any other text in the place of a number
is an error that names the command and the text.
-/

namespace LabelPress.Markup

open LabelPress.Text

/-- The parameters of a command. -/
structure Parameters where
  /-- The code of the command, for errors. -/
  command : List Char
  /-- The texts between the commas. -/
  fields : List (List Char)
  deriving DecidableEq, Repr

namespace Parameters

/-- The parameters that `text` holds. -/
def ofText (command text : List Char) : Parameters :=
  ⟨command, text.splitOn ','⟩

/-- The trimmed text of a parameter, if it is not blank. -/
def text? (parameters : Parameters) (index : Nat) : Option (List Char) :=
  match parameters.fields[index]? with
  | none => none
  | some field => if trim field = [] then none else some (trim field)

/-- The first character of a parameter, in upper case. -/
def letter? (parameters : Parameters) (index : Nat) : Option Char :=
  match parameters.text? index with
  | some (character :: _) => some character.toUpper
  | _ => none

/-- A choice between yes and no; any other letter has no value. -/
def flag? (parameters : Parameters) (index : Nat) : Option Bool :=
  match parameters.letter? index with
  | some 'Y' => some true
  | some 'N' => some false
  | _ => none

/-- The number of dots that a text stands for, from `least` on. -/
def dots? (least : Int) (text : List Char) : Option Int :=
  match integer? text with
  | some number => if least ≤ number ∧ number ≤ maxDots then some number else none
  | none => none

/-- A number of dots from `least` to `maxDots`, if the parameter has a value. -/
def dots (parameters : Parameters) (index : Nat) (least : Int) :
    Except MarkupError (Option Int) :=
  match parameters.text? index with
  | none => .ok none
  | some text =>
    match dots? least text with
    | some number => .ok (some number)
    | none => .error (.parameter (String.ofList parameters.command) (String.ofList text))

/-- A number of dots in either direction. -/
def signed (parameters : Parameters) (index : Nat) : Except MarkupError (Option Int) :=
  parameters.dots index (-maxDots)

/-- A number of dots that is not negative. -/
def unsigned (parameters : Parameters) (index : Nat) : Except MarkupError (Option Nat) :=
  (parameters.dots index 0).map (Option.map Int.toNat)

/-- The ink that a parameter names: `W` is white and all else is black. -/
def ink (parameters : Parameters) (index : Nat) : Ink :=
  match parameters.text? index with
  | some text => if text.map Char.toUpper = ['W'] then .white else .black
  | none => .black

end Parameters

end LabelPress.Markup
