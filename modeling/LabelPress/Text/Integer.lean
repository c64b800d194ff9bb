/-!
# Integers in decimal

Reading of whole numbers written with decimal digits, with and without a sign, and of single
hexadecimal digits.  A number needs at least one digit and nothing but digits after its sign.
-/

namespace LabelPress.Text

/-- The value of a decimal digit. -/
def decimalDigit? (character : Char) : Option Nat :=
  if '0' ≤ character ∧ character ≤ '9' then some (character.toNat - '0'.toNat) else none

/-- The value of a hexadecimal digit of either case. -/
def hexDigit? (character : Char) : Option Nat :=
  if '0' ≤ character ∧ character ≤ '9' then some (character.toNat - '0'.toNat)
  else if 'a' ≤ character ∧ character ≤ 'f' then some (character.toNat - 'a'.toNat + 10)
  else if 'A' ≤ character ∧ character ≤ 'F' then some (character.toNat - 'A'.toNat + 10)
  else none

/-- Whether a character is one of the ten ASCII digits. -/
def isDecimalDigit (character : Char) : Bool :=
  '0' ≤ character && character ≤ '9'

/-- The number whose decimal digits follow those of `accumulated`. -/
def digitsFrom? (accumulated : Nat) : List Char → Option Nat
  | [] => some accumulated
  | character :: rest =>
    match decimalDigit? character with
    | some digit => digitsFrom? (10 * accumulated + digit) rest
    | none => none

/-- A number written as one digit or more. -/
def digits? : List Char → Option Nat
  | [] => none
  | text => digitsFrom? 0 text

/-- A number that may carry a plus sign. -/
def natural? : List Char → Option Nat
  | '+' :: text => digits? text
  | text => digits? text

/-- A number that may carry either sign. -/
def integer? : List Char → Option Int
  | '+' :: text => (digits? text).map Int.ofNat
  | '-' :: text => (digits? text).map fun magnitude => -Int.ofNat magnitude
  | text => (digits? text).map Int.ofNat

end LabelPress.Text
