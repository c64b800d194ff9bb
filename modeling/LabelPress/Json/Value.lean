/-!
# JSON values

The values of JSON texts.  Numbers keep how they were written: whole numbers that fit into 64 bits
stay whole, all others are floating-point numbers.  The members of an object stand in the order of
the text; of members with one name the last one counts.
-/

namespace LabelPress

namespace Json

/-- A number of a JSON text. -/
inductive Number where
  /-- A whole number from zero to 2^64 - 1. -/
  | natural (value : Nat)
  /-- A whole number from -2^63 to -1. -/
  | negative (value : Int)
  | float (value : Float)
  deriving Repr

/-- The number as a floating-point number. -/
def Number.toFloat : Number → Float
  | natural value => Float.ofNat value
  | negative value => -Float.ofNat value.natAbs
  | float value => value

/-- A value of a JSON text. -/
inductive Value where
  | null
  | boolean (value : Bool)
  | number (value : Number)
  | string (value : String)
  | array (items : List Value)
  | object (members : List (String × Value))

/-- The last member with a name. -/
def member? (name : String) (members : List (String × Value)) : Option Value :=
  (members.reverse.find? fun entry => entry.1 == name).map Prod.snd

end Json

end LabelPress
