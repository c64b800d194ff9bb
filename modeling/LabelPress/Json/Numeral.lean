import LabelPress.Json.Reader
import LabelPress.Json.Value
import LabelPress.Text.Integer

/-!
# Numerals

A numeral is a whole number, perhaps with a fraction and an exponent.  Its digits are collected as
long as they fit into 64 bits; further ones before the point raise the power of ten, further ones
behind it are left out.  The number is the collected one, multiplied or divided by the power of
ten in floating-point arithmetic.
-/

namespace LabelPress.Json

/-- The value of a digit. -/
def digit? (byte : UInt8) : Option Nat :=
  Text.decimalDigit? (Char.ofNat byte.toNat)

/-- Whether a byte is a digit. -/
def isDigit (byte : UInt8) : Bool :=
  (digit? byte).isSome

/-- The digits at the beginning of bytes. -/
def takeDigits (bytes : List UInt8) : Taken (List Nat) bytes where
  value := (bytes.takeWhile isDigit).filterMap digit?
  rest := bytes.dropWhile isDigit
  notLonger := (List.dropWhile_sublist _).length_le

/-- The exponent of a numeral. -/
structure ExponentPart where
  /-- It has a minus sign. -/
  negative : Bool
  /-- Its digits. -/
  digits : List Nat
  /-- The bytes from the digits on. -/
  source : List UInt8
  deriving DecidableEq, Repr

/-- The digits of a fraction, none if there is no point. -/
def takeFraction (bytes : List UInt8) : Except Failure (Taken (List Nat) bytes) :=
  match bytes with
  | [] => .ok ⟨[], [], Nat.le_refl _⟩
  | first :: behind =>
    if first = byteOf '.' then
      let taken := takeDigits behind
      if taken.value = [] then
        .error (.atNext (if behind = [] then .unfinishedValue else .badNumber) behind)
      else .ok ⟨taken.value, taken.rest, Nat.le_succ_of_le taken.notLonger⟩
    else .ok ⟨[], first :: behind, Nat.le_refl _⟩

/-- The digits of an exponent behind its sign. -/
def takeExponentDigits (negative : Bool) (bytes : List UInt8) :
    Except Failure (Taken ExponentPart bytes) :=
  match bytes with
  | [] => .error ⟨.unfinishedValue, []⟩
  | first :: behind =>
    if isDigit first then
      let taken := takeDigits (first :: behind)
      .ok ⟨⟨negative, taken.value, first :: behind⟩, taken.rest, taken.notLonger⟩
    else .error ⟨.badNumber, behind⟩

/-- An exponent behind its letter. -/
def takeExponentNumber (bytes : List UInt8) : Except Failure (Taken ExponentPart bytes) :=
  match bytes with
  | [] => .error ⟨.unfinishedValue, []⟩
  | first :: behind =>
    if first = byteOf '+' ∨ first = byteOf '-' then
      match takeExponentDigits (first = byteOf '-') behind with
      | .ok taken => .ok ⟨taken.value, taken.rest, Nat.le_succ_of_le taken.notLonger⟩
      | .error failure => .error failure
    else takeExponentDigits false (first :: behind)

/-- An exponent, if there is one. -/
def takeExponent (bytes : List UInt8) : Except Failure (Taken (Option ExponentPart) bytes) :=
  match bytes with
  | [] => .ok ⟨none, [], Nat.le_refl _⟩
  | first :: behind =>
    if first = byteOf 'e' ∨ first = byteOf 'E' then
      match takeExponentNumber behind with
      | .ok taken => .ok ⟨some taken.value, taken.rest, Nat.le_succ_of_le taken.notLonger⟩
      | .error failure => .error failure
    else .ok ⟨none, first :: behind, Nat.le_refl _⟩

/-- The digits of a whole number; a leading zero stands alone. -/
def takeWhole (bytes : List UInt8) : Except Failure (Found (List Nat) bytes) :=
  match bytes with
  | [] => .error ⟨.unfinishedValue, []⟩
  | first :: behind =>
    match digit? first with
    | none => .error ⟨.badNumber, behind⟩
    | some 0 =>
      if isDigit (behind.headD 0) then .error (.atNext .badNumber behind)
      else .ok (.first [0] first behind)
    | some digit =>
      let taken := takeDigits behind
      .ok (Taken.behind ⟨digit :: taken.value, taken.rest, taken.notLonger⟩ first)

/-- The greatest number of 64 bits. -/
def maxSignificand : Nat := 0xFFFFFFFFFFFFFFFF

/-- Appends digits to a number as long as it fits into 64 bits, and gives back the others. -/
def appendDigits (significand : Nat) : (digits : List Nat) → Nat × List Nat
  | [] => (significand, [])
  | digit :: digits =>
    if 10 * significand + digit ≤ maxSignificand then
      appendDigits (10 * significand + digit) digits
    else (significand, digit :: digits)

/-- The greatest exponent that can be written. -/
def maxExponent : Nat := 0x7FFFFFFF

/-- The number of digits after which an exponent is too great. -/
def excessAfter? (exponent count : Nat) : (digits : List Nat) → Option Nat
  | [] => none
  | digit :: digits =>
    if maxExponent < 10 * exponent + digit then some (count + 1)
    else excessAfter? (10 * exponent + digit) (count + 1) digits

/-- A power of ten; it is finite up to `maxPower`. -/
def powerOfTen (exponent : Nat) : Float :=
  Float.ofScientific 1 false exponent

/-- The greatest finite power of ten. -/
def maxPower : Nat := 308

/-- A number times a power of ten, if it is finite. -/
def scaled? (number : Float) (exponent : Int) : Option Float :=
  if 0 ≤ exponent then
    if exponent.toNat ≤ maxPower then
      let product := number * powerOfTen exponent.toNat
      if product.isInf then none else some product
    else if number == 0 then some number
    else none
  else if exponent.natAbs ≤ maxPower then some (number / powerOfTen exponent.natAbs)
  else if number == 0 then some number
  else scaled? (number / powerOfTen maxPower) (exponent + maxPower)
termination_by exponent.natAbs
decreasing_by
  simp only [maxPower] at *
  omega

/-- A whole number; a negative one that does not fit into 64 bits, or is zero, becomes a float. -/
def wholeNumber (negative : Bool) (significand : Nat) : Number :=
  if negative then
    if 1 ≤ significand ∧ significand ≤ 0x8000000000000000 then .negative (-(significand : Int))
    else .float (-Float.ofNat significand)
  else .natural significand

/-- The parts of a numeral. -/
structure Numeral where
  /-- It has a minus sign. -/
  negative : Bool
  /-- The digits before the point. -/
  whole : List Nat
  /-- The digits behind the point. -/
  fraction : List Nat
  /-- The exponent. -/
  exponent : Option ExponentPart
  deriving DecidableEq, Repr

namespace Numeral

/-- The digits of a numeral as a significand, and its power of ten without the exponent. -/
def parts (numeral : Numeral) : Nat × Int :=
  let (significand, wholeLeft) := appendDigits 0 numeral.whole
  let (significand, fractionLeft) := appendDigits significand numeral.fraction
  (significand, wholeLeft.length - (numeral.fraction.length - fractionLeft.length : Nat))

/-- The absolute value of a numeral as a float; `rest` stands behind the numeral. -/
def magnitude (numeral : Numeral) (rest : List UInt8) : Except Failure Float :=
  let (significand, power) := numeral.parts
  let scaled (power : Int) : Except Failure Float :=
    match scaled? (Float.ofNat significand) power with
    | some number => .ok number
    | none => .error ⟨.numberOutOfRange, rest⟩
  match numeral.exponent with
  | none => scaled power
  | some exponent =>
    match excessAfter? 0 0 exponent.digits with
    | some count =>
      if significand ≠ 0 ∧ !exponent.negative then
        .error ⟨.numberOutOfRange, exponent.source.drop count⟩
      else .ok 0
    | none =>
      let value : Nat := exponent.digits.foldl (fun value digit => 10 * value + digit) 0
      scaled (if exponent.negative then power - value else power + value)

/-- The number that a numeral stands for; `rest` stands behind it. -/
def number (numeral : Numeral) (rest : List UInt8) : Except Failure Number :=
  let (significand, left) := appendDigits 0 numeral.whole
  if numeral.fraction = [] ∧ numeral.exponent = none ∧ left = [] then
    .ok (wholeNumber numeral.negative significand)
  else
    match numeral.magnitude rest with
    | .ok magnitude => .ok (.float (if numeral.negative then -magnitude else magnitude))
    | .error failure => .error failure

end Numeral

/-- Reads a number without its sign. -/
def readUnsigned (negative : Bool) : Reader Number := fun bytes =>
  match takeWhole bytes with
  | .error failure => .error failure
  | .ok whole =>
    match takeFraction whole.rest with
    | .error failure => .error failure
    | .ok fraction =>
      match takeExponent fraction.rest with
      | .error failure => .error failure
      | .ok exponent =>
        let numeral : Numeral := ⟨negative, whole.value, fraction.value, exponent.value⟩
        match numeral.number exponent.rest with
        | .error failure => .error failure
        | .ok number =>
          .ok ⟨number, exponent.rest, Nat.lt_of_le_of_lt
            (Nat.le_trans exponent.notLonger fraction.notLonger) whole.shorter⟩

end LabelPress.Json
