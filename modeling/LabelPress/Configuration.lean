import LabelPress.Drawing
import LabelPress.Json.Description
import LabelPress.Json.Parse

/-!
# The configuration of a run

A configuration is a JSON object.  It gives the size of the label, the print density, the turn of
the finished picture and the file of a font; what is absent is zero or none, and members with other
names are ignored.
-/

namespace LabelPress

/-- The configuration of a run. -/
structure Configuration where
  /-- The width of the label in millimetres. -/
  widthMm : Float := 0
  /-- The height of the label in millimetres. -/
  heightMm : Float := 0
  /-- The print density. -/
  dotsPerMm : Int := 0
  /-- The angle by which the finished picture is turned. -/
  rotation : Int := 0
  /-- The file of the font for text. -/
  fontPath : Option String := none
  deriving Repr

/-- A reason for which a text is no configuration. -/
inductive ConfigFault where
  /-- The text is no JSON. -/
  | notJson (fault : Json.Fault) (place : Json.Place)
  /-- A value is of another kind than expected. -/
  | wrongKind (found expected : String)
  /-- A whole number is too small or too great. -/
  | outOfRange (number : Int) (expected : String)
  deriving DecidableEq, Repr

/-- The text of a fault behind its heading. -/
def ConfigFault.reason : ConfigFault → String
  | notJson fault place =>
    fault.message ++ " at line " ++ toString place.line ++ " column " ++ toString place.column
  | wrongKind found expected => "invalid type: " ++ found ++ ", expected " ++ expected
  | outOfRange number expected =>
    "invalid value: integer \x60" ++ toString number ++ "\x60, expected " ++ expected

/-- The text of a fault. -/
def ConfigFault.message (fault : ConfigFault) : String :=
  "parsing config JSON: " ++ fault.reason

namespace Configuration

/-- The turn of the finished picture. -/
def turn (configuration : Configuration) : Turn :=
  .ofDegrees configuration.rotation

/-- What is known about a label besides its markup. -/
def drawOptions (configuration : Configuration) : DrawOptions where
  widthMm := configuration.widthMm
  heightMm := configuration.heightMm
  dotsPerMm := configuration.dotsPerMm
  fontPath := configuration.fontPath

/-- The length in a value. -/
def length (value : Json.Value) : Except ConfigFault Float :=
  match value with
  | .number number => .ok number.toFloat
  | _ => .error (.wrongKind value.description "f64")

/-- Whether a whole number fits into 32 bits. -/
def fits (number : Int) : Bool :=
  -0x80000000 ≤ number ∧ number < 0x80000000

/-- The whole number in a value. -/
def integer (value : Json.Value) : Except ConfigFault Int :=
  let checked (number : Int) : Except ConfigFault Int :=
    if fits number then .ok number else .error (.outOfRange number "i32")
  match value with
  | .number (.natural number) => checked number
  | .number (.negative number) => checked number
  | _ => .error (.wrongKind value.description "i32")

/-- The path in a value. -/
def path (value : Json.Value) : Except ConfigFault (Option String) :=
  match value with
  | .null => .ok none
  | .string path => .ok (some path)
  | _ => .error (.wrongKind value.description "path string")

/-- What a member holds, or `absent` if there is none with this name. -/
def field {α : Type} (read : Json.Value → Except ConfigFault α) (absent : α) (name : String)
    (members : List (String × Json.Value)) : Except ConfigFault α :=
  match Json.member? name members with
  | some value => read value
  | none => .ok absent

/-- The configuration in the members of an object; faults are found in the order of the names. -/
def ofMembers (members : List (String × Json.Value)) : Except ConfigFault Configuration := do
  let dotsPerMm ← field integer 0 "dpmm" members
  let fontPath ← field path none "fontPath" members
  let heightMm ← field length 0 "labelHeightMm" members
  let widthMm ← field length 0 "labelWidthMm" members
  let rotation ← field integer 0 "rotation" members
  return { widthMm, heightMm, dotsPerMm, rotation, fontPath }

/-- The configuration in a value; a number that stands for an object is not described further. -/
def ofValue (value : Json.Value) : Except ConfigFault Configuration :=
  let expected := "a JSON object"
  match value with
  | .object members => ofMembers members
  | .number _ => .error (.wrongKind "number" expected)
  | _ => .error (.wrongKind value.description expected)

/-- The configuration in a text. -/
def ofText (text : String) : Except ConfigFault Configuration :=
  let bytes := Text.encode text.toList
  match Json.parse bytes with
  | .ok value => ofValue value
  | .error failure => .error (.notJson failure.fault (failure.place bytes))

end Configuration

end LabelPress
