import LabelPress.Text.Integer

/-!
# EAN-13

A code has thirteen digits, the last of which is a check digit.  The first digit is not printed as
bars of its own: it decides which of two patterns each of the six digits behind it uses.
-/

namespace LabelPress.Ean13

open LabelPress.Text

/-- The data hold a character other than a digit. -/
structure Fault where
  /-- The first such character. -/
  character : Char
  deriving DecidableEq, Repr

/-- The text of a fault. -/
def Fault.message (fault : Fault) : String :=
  "EAN-13 data must be digits, found '" ++ String.singleton fault.character ++ "'"

/-- The sum of digits with weights in turns, one and three, that begins with `weight`. -/
def weightedSum (weight : Nat) : List Nat → Nat
  | [] => 0
  | digit :: digits => weight * digit + weightedSum (4 - weight) digits

/-- The digit that completes the weighted sum of twelve digits to a multiple of ten. -/
def checkDigit (digits : List Nat) : Nat :=
  (10 - weightedSum 1 digits % 10) % 10

/-- Twelve digits: the first twelve that are given, behind zeros if there are fewer. -/
def payload (digits : List Nat) : List Nat :=
  List.replicate (12 - digits.length) 0 ++ digits.take 12

/-- The thirteen digits that data stand for. -/
def normalize (data : List Char) : Except Fault (List Nat) :=
  match data.find? (!isDecimalDigit ·) with
  | some character => .error ⟨character⟩
  | none =>
    let digits := payload (data.filterMap decimalDigit?)
    .ok (digits ++ [checkDigit digits])

/-- The text of a code. -/
def text (digits : List Nat) : List Char :=
  digits.map Nat.digitChar

/-- The pattern of a digit on the left side, odd parity. -/
def leftOdd : Nat → List Bool
  | 0 => [false, false, false, true, true, false, true]
  | 1 => [false, false, true, true, false, false, true]
  | 2 => [false, false, true, false, false, true, true]
  | 3 => [false, true, true, true, true, false, true]
  | 4 => [false, true, false, false, false, true, true]
  | 5 => [false, true, true, false, false, false, true]
  | 6 => [false, true, false, true, true, true, true]
  | 7 => [false, true, true, true, false, true, true]
  | 8 => [false, true, true, false, true, true, true]
  | _ => [false, false, false, true, false, true, true]

/-- The pattern of a digit on the right side: bars and spaces change places. -/
def right (digit : Nat) : List Bool :=
  (leftOdd digit).map (!·)

/-- The pattern of a digit on the left side, even parity: the right one read backwards. -/
def leftEven (digit : Nat) : List Bool :=
  (right digit).reverse

/-- Which of the six digits on the left have even parity, by the first digit of the code. -/
def evenParity : Nat → List Bool
  | 0 => [false, false, false, false, false, false]
  | 1 => [false, false, true, false, true, true]
  | 2 => [false, false, true, true, false, true]
  | 3 => [false, false, true, true, true, false]
  | 4 => [false, true, false, false, true, true]
  | 5 => [false, true, true, false, false, true]
  | 6 => [false, true, true, true, false, false]
  | 7 => [false, true, false, true, false, true]
  | 8 => [false, true, false, true, true, false]
  | _ => [false, true, true, false, true, false]

/-- The bars at either end. -/
def guard : List Bool := [true, false, true]

/-- The bars in the middle. -/
def centre : List Bool := [false, true, false, true, false]

/-- The modules of the digits behind the first one, up to the middle. -/
def leftSide (parities : List Bool) (digits : List Nat) : List Bool :=
  (digits.zip parities).flatMap fun entry =>
    if entry.2 then leftEven entry.1 else leftOdd entry.1

/-- The modules of a code; a bar is true. -/
def modules : List Nat → List Bool
  | [] => []
  | first :: digits =>
    guard ++ leftSide (evenParity first) (digits.take 6) ++ centre ++
      (digits.drop 6).flatMap right ++ guard

end LabelPress.Ean13
