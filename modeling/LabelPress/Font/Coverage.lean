import LabelPress.Font.Spot

/-!
# Coverage of dots by an outline

An outline is drawn into a field of numbers, one for each dot.  Every line adds to a dot the change
of the signed area to its right; the running sum over all dots, row by row, is then the share of
each dot that lies inside.  Curves are drawn as several lines.  The vertical axis of the field
points downwards.
-/

namespace LabelPress.Font

/-- A field of changes of area. -/
structure AreaField where
  width : Nat
  height : Nat
  /-- The changes, row by row, and a few cells more. -/
  changes : Array Float32

namespace AreaField

/-- A field on which nothing is drawn. -/
def blank (width height : Nat) : AreaField :=
  ⟨width, height, Array.replicate (width * height + 4) 0⟩

/-- Adds to a cell. -/
def add (changes : Array Float32) (index : Int) (amount : Float32) : Array Float32 :=
  changes.modify index.toNat (· + amount)

/-- Adds the same amount to `count` cells. -/
def addRun (changes : Array Float32) (index : Int) (amount : Float32) : (count : Nat) →
    Array Float32
  | 0 => changes
  | count + 1 => addRun (add changes index amount) (index + 1) amount count

/-- A line that goes downwards. -/
structure Falling where
  /-- The upper end. -/
  upper : Spot
  /-- The lower end. -/
  lower : Spot
  /-- One if the line was drawn downwards, minus one if upwards. -/
  direction : Float32
  /-- The change of the column from one row to the next. -/
  slope : Float32

/-- Adds the part of a line in one row, from column `x` to column `next`. -/
def drawRow (changes : Array Float32) (line x next : Float32) (rowStart : Int) : Array Float32 :=
  let left := if x < next then x else next
  let right := if x < next then next else x
  let leftFloor := left.floor
  let rightCeil := right.ceil
  let first := leftFloor.toInt32.toInt
  let last := rightCeil.toInt32.toInt
  let start := rowStart + first
  if last ≤ first + 1 then
    let middle := 0.5 * (x + next) - leftFloor
    add (add changes start (line - line * middle)) (start + 1) (line * middle)
  else
    let steepness := 1 / (right - left)
    let leftPart := left - leftFloor
    let firstArea := 0.5 * steepness * (1 - leftPart) * (1 - leftPart)
    let rightPart := right - rightCeil + 1
    let lastArea := 0.5 * steepness * rightPart * rightPart
    let changes := add changes start (line * firstArea)
    let changes :=
      if last = first + 2 then add changes (start + 1) (line * (1 - firstArea - lastArea))
      else
        let second := steepness * (1.5 - leftPart)
        let changes := add changes (start + 1) (line * (second - firstArea))
        let inner := (last - first - 3).toNat
        let changes := addRun changes (start + 2) (line * steepness) inner
        let beforeLast := second + Float32.ofNat inner * steepness
        add changes (rowStart + last - 1) (line * (1 - beforeLast - lastArea))
    add changes (rowStart + last) (line * lastArea)

/-- Adds the parts of a line in `count` rows from `row` on; `x` is the column at the upper end. -/
def drawRows (width : Nat) (line : Falling) (changes : Array Float32) (x : Float32) (row : Nat) :
    (count : Nat) → Array Float32
  | 0 => changes
  | count + 1 =>
    let top := max (Float32.ofNat row) line.upper.y
    let bottom := min (Float32.ofNat (row + 1)) line.lower.y
    let height := bottom - top
    let next := x + line.slope * height
    let left := if x < next then x else next
    let rowStart : Int := row * width
    if rowStart + left.floor.toInt32.toInt < 0 then
      drawRows width line changes x (row + 1) count
    else
      drawRows width line (drawRow changes (height * line.direction) x next rowStart) next (row + 1)
        count

/-- The least difference in height of two ends of a line that counts. -/
def flat : Float32 := Float32.ofBits 0x34000000

/-- Draws a line. -/
def drawLine (field : AreaField) (start finish : Spot) : AreaField :=
  if (start.y - finish.y).abs ≤ flat then field
  else
    let falls : Bool := start.y < finish.y
    let upper := if falls then start else finish
    let lower := if falls then finish else start
    let slope := (lower.x - upper.x) / (lower.y - upper.y)
    let x := if upper.y < 0 then upper.x - upper.y * slope else upper.x
    let first := (max upper.y 0).toUInt32.toNat
    let last := min field.height (max lower.y.ceil 0).toUInt32.toNat
    { field with
      changes :=
        drawRows field.width ⟨upper, lower, if falls then 1 else -1, slope⟩ field.changes x first
          (last - first) }

/-- Draws the lines of a quadratic curve, one for each step of the share, and then to the end. -/
def drawSteps (start control finish : Spot) (step share : Float32) (current : Spot)
    (field : AreaField) : (count : Nat) → AreaField
  | 0 => field.drawLine current finish
  | count + 1 =>
    let share := share + step
    let next :=
      Spot.between share (Spot.between share start control) (Spot.between share control finish)
    drawSteps start control finish step share next (field.drawLine current next) count

/-- Draws a quadratic curve; the more it is bent, the more lines it takes. -/
def drawQuadratic (field : AreaField) (start control finish : Spot) : AreaField :=
  let bendX := start.x - 2 * control.x + finish.x
  let bendY := start.y - 2 * control.y + finish.y
  let bend := bendX * bendX + bendY * bendY
  if bend < 0.333 then field.drawLine start finish
  else
    let lines := 1 + (3 * bend).sqrt.sqrt.floor.toUInt32.toNat
    drawSteps start control finish (1 / Float32.ofNat lines) 0 start field (lines - 1)

/-- The running sum behind `count` cells from a cell on, before which it is `sum`. -/
def sumFrom (changes : Array Float32) (index : Nat) (sum : Float32) : (count : Nat) → Float32
  | 0 => sum
  | count + 1 => sumFrom changes (index + 1) (sum + changes.getD index 0) count

/-- The shares of `count` dots from a cell on, before which the running sum is `sum`. -/
def sharesFrom (changes : Array Float32) (index : Nat) (sum : Float32) (shares : Array Float32) :
    (count : Nat) → Array Float32
  | 0 => shares
  | count + 1 =>
    let sum := sum + changes.getD index 0
    sharesFrom changes (index + 1) sum (shares.push sum.abs) count

/-- The share of each dot that lies inside, row by row from row `first` on. -/
def sharesBelow (field : AreaField) (first : Nat) : Array Float32 :=
  let start := field.width * first
  sharesFrom field.changes start (sumFrom field.changes 0 0 start) #[]
    (field.width * (field.height - first))

end AreaField

end LabelPress.Font
