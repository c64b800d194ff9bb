/-!
# Shortest decimals

A floating-point number stands for all reals that round to it.  It is shown as the decimal with the
fewest digits among them, and of those as the nearest one.
-/

namespace LabelPress

/-- A positive number: `digits` times a power of ten. -/
structure Decimal where
  /-- The digits. -/
  digits : Nat
  /-- The power of ten. -/
  exponent : Int
  deriving DecidableEq, Repr

/-- A positive binary number: `significand` times a power of two. -/
structure Binary where
  /-- The significand. -/
  significand : Nat
  /-- The power of two. -/
  exponent : Int
  deriving DecidableEq, Repr

namespace Binary

/-- The least significand of a number that is not tiny: one bit, and 52 behind it. -/
def leastSignificand : Nat := 0x10000000000000

/-- The power of two of the tiniest numbers. -/
def leastExponent : Int := -1074

/-- The absolute value of a finite floating-point number. -/
def ofFloat (number : Float) : Binary :=
  let bits := number.toBits.toNat
  let fraction := bits % leastSignificand
  let exponent := bits / leastSignificand % 2048
  if exponent = 0 then ⟨fraction, leastExponent⟩
  else ⟨leastSignificand + fraction, leastExponent + exponent - 1⟩

end Binary

/--
The reals that round to a number, as fractions with a common denominator: the number itself and
the ends of the interval.
-/
structure RoundingInterval where
  /-- The numerator of the lower end. -/
  lower : Nat
  /-- The numerator of the number. -/
  middle : Nat
  /-- The numerator of the upper end. -/
  upper : Nat
  /-- The denominator. -/
  denominator : Nat
  /-- The ends round to the number as well. -/
  closed : Bool
  deriving DecidableEq, Repr

namespace RoundingInterval

/-- The interval of a floating-point number; below a power of two the steps are half as wide. -/
def ofBinary (number : Binary) : RoundingInterval :=
  let narrow :=
    number.significand = Binary.leastSignificand ∧ Binary.leastExponent < number.exponent
  let numerator := Nat.pow 2 (number.exponent - 2).toNat
  {
    lower := (4 * number.significand - if narrow then 1 else 2) * numerator
    middle := 4 * number.significand * numerator
    upper := (4 * number.significand + 2) * numerator
    denominator := Nat.pow 2 (2 - number.exponent).toNat
    closed := number.significand % 2 = 0
  }

/-- The interval measured in units of a power of ten. -/
def inUnits (interval : RoundingInterval) (exponent : Int) : RoundingInterval :=
  let scale := Nat.pow 10 (-exponent).toNat
  {
    lower := interval.lower * scale
    middle := interval.middle * scale
    upper := interval.upper * scale
    denominator := interval.denominator * Nat.pow 10 exponent.toNat
    closed := interval.closed
  }

/-- Whether a natural number lies in the interval. -/
def holds (interval : RoundingInterval) (number : Nat) : Bool :=
  let scaled := number * interval.denominator
  if interval.closed then interval.lower ≤ scaled ∧ scaled ≤ interval.upper
  else interval.lower < scaled ∧ scaled < interval.upper

/-- The positive natural number in the interval that is nearest to its middle. -/
def nearest? (interval : RoundingInterval) : Option Nat :=
  let below := interval.middle / interval.denominator
  let remainder := 2 * (interval.middle % interval.denominator)
  let belowFirst := remainder < interval.denominator ∨
    remainder = interval.denominator ∧ below % 2 = 0
  let candidates := if belowFirst then [below, below + 1] else [below + 1, below]
  candidates.find? fun number => 0 < number ∧ interval.holds number

/-- Looks for a decimal in coarse units first, then in finer ones. -/
def decimalFrom (interval : RoundingInterval) : (steps : Nat) → (exponent : Int) → Decimal
  | 0, exponent => ⟨0, exponent⟩
  | steps + 1, exponent =>
    match (interval.inUnits exponent).nearest? with
    | some digits => ⟨digits, exponent⟩
    | none => interval.decimalFrom steps (exponent - 1)

end RoundingInterval

/-- The shortest decimal that stands for a positive floating-point number. -/
def Decimal.shortest (number : Float) : Decimal :=
  (RoundingInterval.ofBinary (.ofFloat number)).decimalFrom 700 309

end LabelPress
