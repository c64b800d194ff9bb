import LabelPress.Decimal.Shortest
import LabelPress.Json.Value
import LabelPress.Text.Quoted

/-!
# Descriptions of JSON values

Messages about a value of the wrong kind describe what was found instead.
-/

namespace LabelPress.Json

/-- The least power of ten of a first digit for which a number is written without exponent. -/
def leastPlainPower : Int := -5

/-- The power of ten of a first digit from which on a number is written with an exponent. -/
def firstRaisedPower : Int := 16

/-- The text of a positive number; there always is a digit behind the point or an exponent. -/
def decimalText (decimal : Decimal) : String :=
  let digits := toString decimal.digits
  let power : Int := (digits.length : Int) - 1 + decimal.exponent
  let zeros (count : Int) : String := "".pushn '0' count.toNat
  let before (count : Nat) : String := String.ofList (digits.toList.take count)
  let behind (count : Nat) : String := String.ofList (digits.toList.drop count)
  if leastPlainPower ≤ power ∧ power < firstRaisedPower then
    if 0 ≤ decimal.exponent then digits ++ zeros decimal.exponent ++ ".0"
    else if 0 ≤ power then before (power.toNat + 1) ++ "." ++ behind (power.toNat + 1)
    else "0." ++ zeros (-power - 1) ++ digits
  else
    let mantissa := if digits.length = 1 then digits else before 1 ++ "." ++ behind 1
    mantissa ++ "e" ++ (if power < 0 then "-" else "+") ++ toString power.natAbs

/-- The text of a finite number. -/
def floatText (number : Float) : String :=
  let sign := if number.toBits.toNat.testBit 63 then "-" else ""
  sign ++ if number == 0 then "0.0" else decimalText (.shortest number)

/-- The description of a number. -/
def Number.description : Number → String
  | natural value => "integer \x60" ++ toString value ++ "\x60"
  | negative value => "integer \x60" ++ toString value ++ "\x60"
  | float value => "floating point \x60" ++ floatText value ++ "\x60"

/-- The description of a value. -/
def Value.description : Value → String
  | null => "null"
  | boolean value => "boolean \x60" ++ toString value ++ "\x60"
  | number value => value.description
  | string value => "string " ++ String.ofList (Text.quoted value.toList)
  | array _ => "sequence"
  | object _ => "map"

end LabelPress.Json
