import LabelPress.Canvas
import LabelPress.Symbology.Qr.Codeword

/-!
# QR symbols

The modules of a symbol: finder patterns in three corners, alignment patterns, timing lines,
the version and the format, and the codewords in a path that winds through what is left.  Of
eight masks, which invert a pattern of the codeword modules, the one with the lowest penalty is
used; of several such masks the first.
-/

namespace LabelPress.Qr

/-- What a module holds before masking. -/
inductive Cell where
  /-- Nothing yet. -/
  | empty
  /-- A bit of a codeword, which a mask may invert. -/
  | data (dark : Bool)
  /-- A part of a fixed pattern. -/
  | fixed (dark : Bool)
  deriving DecidableEq, Repr

/-- Sets a module to a part of a fixed pattern. -/
def place (cells : Grid Cell) (x y : Nat) (dark : Bool) : Grid Cell :=
  cells.updateRect x y 1 1 fun _ _ _ => .fixed dark

/--
Draws squares inside each other around the module `(x, y)`: dark at distance zero, one and three,
as far as `reach`, and light elsewhere.
-/
def drawSquares (x y : Int) (reach : Nat) (isDark : Nat → Bool) (cells : Grid Cell) : Grid Cell :=
  let offsets := (List.range (2 * reach + 1)).map fun index => Int.ofNat index - Int.ofNat reach
  offsets.foldl (fun cells dy =>
    offsets.foldl (fun cells dx =>
      if 0 ≤ x + dx ∧ 0 ≤ y + dy then
        place cells (x + dx).toNat (y + dy).toNat (isDark (max dx.natAbs dy.natAbs))
      else cells) cells) cells

/-- Draws a finder pattern and the light frame around it. -/
def drawFinder (cells : Grid Cell) (x y : Nat) : Grid Cell :=
  drawSquares x y 4 (fun distance => distance ≠ 2 && distance ≠ 4) cells

/-- Draws an alignment pattern, unless a finder pattern is there. -/
def drawAlignment (cells : Grid Cell) (x y : Nat) : Grid Cell :=
  match cells.cell? x y with
  | some .empty => drawSquares x y 2 (fun distance => distance ≠ 1) cells
  | _ => cells

/-- Draws the two timing lines where nothing is yet. -/
def drawTiming (cells : Grid Cell) : Grid Cell :=
  let line (index : Nat) (old : Cell) : Cell :=
    match old with
    | .empty => .fixed (index % 2 = 0)
    | old => old
  let cells := cells.updateRect 0 6 cells.width 1 fun column _ old => line column old
  cells.updateRect 6 0 1 cells.height fun _ row old => line row old

/-- Draws numbered modules; each bit of `value` stands at the given places. -/
def drawBits (value : Nat) (places : List (Nat × List (Nat × Nat))) (cells : Grid Cell) :
    Grid Cell :=
  places.foldl (fun cells entry =>
    entry.2.foldl (fun cells spot => place cells spot.1 spot.2 (value.testBit entry.1)) cells)
    cells

/--
The remainder of a polynomial over two elements: `count` zeros are put behind `value`, and the
rest of the division by `generator`, whose degree is `count`, is taken.
-/
def bitRemainder (value generator count : Nat) : Nat :=
  (List.range count).foldl
    (fun remainder _ =>
      (remainder <<< 1) ^^^ (if remainder.testBit (count - 1) then generator else 0))
    value

/-- The eighteen bits that name the version, from version 7 on. -/
def versionBits (version : Nat) : Nat :=
  (version <<< 12) ||| bitRemainder version 0x1F25 12

/-- The two bits of a level. -/
def levelBits : QrLevel → Nat
  | .low => 1
  | .medium => 0
  | .quartile => 3
  | .high => 2

/-- The fifteen bits that name the level and the mask. -/
def formatBits (level : QrLevel) (mask : Nat) : Nat :=
  let value := (levelBits level <<< 3) ||| mask
  ((value <<< 10) ||| bitRemainder value 0x537 10) ^^^ 0x5412

/-- The places of the version bits. -/
def versionPlaces (side : Nat) : List (Nat × List (Nat × Nat)) :=
  (List.range 18).map fun index =>
    let far := side - 11 + index % 3
    (index, [(far, index / 3), (index / 3, far)])

/-- The places of the format bits. -/
def formatPlaces (side : Nat) : List (Nat × List (Nat × Nat)) :=
  (List.range 15).map fun index =>
    let near :=
      if index < 6 then (8, index)
      else if index = 6 then (8, 7)
      else if index = 7 then (8, 8)
      else if index = 8 then (7, 8)
      else (14 - index, 8)
    let far := if index < 8 then (side - 1 - index, 8) else (8, side - 15 + index)
    (index, [near, far])

/-- Draws the format and the module beside it that is always dark. -/
def drawFormat (level : QrLevel) (mask : Nat) (cells : Grid Cell) : Grid Cell :=
  place (drawBits (formatBits level mask) (formatPlaces cells.width) cells) 8 (cells.width - 8) true

/-- The fixed patterns of a symbol; the places of the format are taken, too. -/
def frame (level : QrLevel) (version : Nat) : Grid Cell :=
  let size := side version
  let cells := Grid.replicate size size Cell.empty
  let cells := drawFinder (drawFinder (drawFinder cells 3 3) (size - 4) 3) 3 (size - 4)
  let middles := alignments version
  let cells :=
    (middles.flatMap fun y => middles.map fun x => (x, y)).foldl
      (fun cells spot => drawAlignment cells spot.1 spot.2) cells
  let cells := drawTiming cells
  let cells :=
    if version < 7 then cells else drawBits (versionBits version) (versionPlaces size) cells
  drawFormat level 0 cells

/-- The modules in the order in which codewords are placed, fixed patterns included. -/
def path (size : Nat) : List (Nat × Nat) :=
  (List.range ((size - 1) / 2)).flatMap fun pair =>
    let right := size - 1 - 2 * pair
    let right := if right ≤ 6 then right - 1 else right
    let upwards := pair % 2 = 0
    (List.range size).flatMap fun step =>
      let y := if upwards then size - 1 - step else step
      [(right, y), (right - 1, y)]

/-- Places bits along a path where nothing is yet; modules without a bit are light. -/
def placeBits (cells : Grid Cell) : (spots : List (Nat × Nat)) → (bits : List Bool) → Grid Cell
  | [], _ => cells
  | (x, y) :: spots, bits =>
    match cells.cell? x y with
    | some .empty =>
      placeBits (cells.updateRect x y 1 1 fun _ _ _ => .data (bits.headD false)) spots bits.tail
    | _ => placeBits cells spots bits

/-- Whether a mask inverts the module `(x, y)`. -/
def masks (mask x y : Nat) : Bool :=
  match mask with
  | 0 => (x + y) % 2 = 0
  | 1 => y % 2 = 0
  | 2 => x % 3 = 0
  | 3 => (x + y) % 3 = 0
  | 4 => (x / 3 + y / 2) % 2 = 0
  | 5 => x * y % 2 + x * y % 3 = 0
  | 6 => (x * y % 2 + x * y % 3) % 2 = 0
  | _ => ((x + y) % 2 + x * y % 3) % 2 = 0

/-- The modules of a symbol with a mask; a dark module is true. -/
def masked (level : QrLevel) (cells : Grid Cell) (mask : Nat) : Grid Bool :=
  let cells := drawFormat level mask cells
  Grid.ofFn cells.width cells.height fun x y =>
    match cells.get x y with
    | .data dark => dark != masks mask x y
    | .fixed dark => dark
    | .empty => masks mask x y

/-- The modules of each row, or of each column. -/
def lines (modules : Grid Bool) : List (List Bool) :=
  (List.range modules.height).map fun y =>
    (List.range modules.width).map fun x => modules.cellD x y false

/-- The penalty for runs of equal modules; `count` modules like `last` came before. -/
def runPenalty (last : Bool) (count : Nat) : List Bool → Nat
  | [] => if 5 ≤ count then count - 2 else 0
  | bit :: rest =>
    if bit = last then runPenalty last (count + 1) rest
    else (if 5 ≤ count then count - 2 else 0) + runPenalty bit 1 rest

/-- The penalty for squares of four equal modules in two neighbouring lines. -/
def squarePenalty : List Bool → List Bool → Nat
  | first :: second :: upper, third :: fourth :: lower =>
    (if first = second ∧ second = third ∧ third = fourth then 3 else 0) +
      squarePenalty (second :: upper) (fourth :: lower)
  | _, _ => 0

/-- Whether four modules are light; those outside the symbol are. -/
def lightAhead (line : List Bool) : Bool :=
  (line.take 4).all (!·)

/-- Whether a line begins with a pattern like that through the middle of a finder. -/
def beginsLikeFinder (line : List Bool) : Bool :=
  line.take 7 = [true, false, true, true, true, false, true]

/-- The penalty for patterns like finders; `before` holds the modules passed, last one first. -/
def finderPenalty (before : List Bool) : List Bool → Nat
  | [] => 0
  | bit :: rest =>
    (if beginsLikeFinder (bit :: rest) &&
        (lightAhead before || lightAhead (rest.drop 6)) then 40 else 0) +
      finderPenalty (bit :: before) rest

/-- The penalty of lines, seen one by one. -/
def linePenalty (line : List Bool) : Nat :=
  (match line with
    | [] => 0
    | bit :: rest => runPenalty bit 1 rest) + finderPenalty [] line

/-- The penalty for a share of dark modules other than one half. -/
def balancePenalty (lines : List (List Bool)) : Nat :=
  let dark := sum (lines.map fun line => line.count true)
  let total := sum (lines.map List.length)
  let share := dark * 200 / total
  max share 100 - min share 100

/-- The penalty of a symbol. -/
def penalty (modules : Grid Bool) : Nat :=
  let rows := lines modules
  let columns := lines (modules.turn .left)
  sum (rows.map linePenalty) + sum (columns.map linePenalty) +
    sum (rows.zipWith squarePenalty rows.tail) + balancePenalty rows

/-- The first of the symbols with the lowest penalty. -/
def best (first : Grid Bool) (others : List (Grid Bool)) : Grid Bool :=
  (others.foldl
    (fun found modules =>
      let score := penalty modules
      if score < found.2 then (modules, score) else found)
    (first, penalty first)).1

/-- The symbol of the given codewords. -/
def symbol (level : QrLevel) (version : Nat) (words : List Nat) : Grid Bool :=
  let cells := placeBits (frame level version) (path (side version)) (words.flatMap (bits 8))
  best (masked level cells 0) (((List.range 7).map (· + 1)).map (masked level cells))

/-- The symbol of data, if one holds them. -/
def encode? (data : List UInt8) (level : QrLevel) : Option (Grid Bool) :=
  let bytes := data.map UInt8.toNat
  (choose? level bytes).map fun (version, segments) =>
    symbol level version (finalWords level version (dataWords level version segments))

/-- The size of a module in dots for a print density. -/
def defaultMagnification (dotsPerMm : Int) : Nat :=
  if dotsPerMm ≤ 6 then 1
  else if dotsPerMm ≤ 8 then 2
  else if dotsPerMm ≤ 12 then 3
  else 6

/-- The modules of a symbol, each magnified to a square. -/
def magnify (modules : Grid Bool) (magnification : Nat) : Mask :=
  let scale := max magnification 1
  Mask.ofInk (modules.width * scale) (modules.height * scale) fun x y =>
    modules.cellD (x / scale) (y / scale) false

end LabelPress.Qr
