import LabelPress.Turn

/-!
# Labels

A label is a list of elements, each with an origin and something to print: text, a barcode, a
drawn shape or a bitmap.  All positions and sizes are in printer dots.
-/

namespace LabelPress

/-- The largest number of dots that a position or a side may have. -/
def maxDots : Nat := 32000

/-- The direction in which a field is read. -/
inductive Orientation where
  /-- From left to right. -/
  | normal
  /-- Turned clockwise by a quarter. -/
  | rotated
  /-- Upside down. -/
  | inverted
  /-- From the bottom up. -/
  | bottom
  deriving DecidableEq, Repr, Inhabited

namespace Orientation

/-- The orientation that a letter stands for, in either case. -/
def ofCode? (code : Char) : Option Orientation :=
  match code.toUpper with
  | 'N' => some normal
  | 'R' => some rotated
  | 'I' => some inverted
  | 'B' => some bottom
  | _ => none

/-- The turn that brings an upright field into this orientation. -/
def turn : Orientation → Turn
  | normal => .upright
  | rotated => .right
  | inverted => .half
  | bottom => .left

end Orientation

/-- What the origin of a field refers to. -/
inductive Anchor where
  /-- The top left corner. -/
  | topLeft
  /-- The left end of the baseline of text, or the bottom left corner of anything else. -/
  | baseline
  deriving DecidableEq, Repr, Inhabited

/-- The position of a field, the label home included. -/
structure Origin where
  /-- Dots from the left edge. -/
  x : Int
  /-- Dots from the top edge. -/
  y : Int
  /-- What stands at this position. -/
  anchor : Anchor
  deriving DecidableEq, Repr, Inhabited

/-- A choice of letters. -/
structure Lettering where
  /-- The name of the font; every name prints in the loaded font. -/
  name : Char
  /-- The direction of the text. -/
  orientation : Orientation
  /-- The height of a character. -/
  height : Nat
  /-- The width of a character; zero keeps it in proportion to the height. -/
  width : Nat
  deriving DecidableEq, Repr

instance : Inhabited Lettering where
  default := ⟨'A', .normal, 9, 5⟩

/-- How the lines of a block of text stand between its edges. -/
inductive Justification where
  | left
  | center
  | right
  | justified
  deriving DecidableEq, Repr, Inhabited

/-- A block into which text is wrapped. -/
structure Block where
  /-- The width of the block; zero means that lines are not wrapped. -/
  width : Nat
  /-- The number of lines that are kept. -/
  maxLines : Nat
  /-- Dots between two lines; they overlap if it is negative. -/
  lineSpacing : Int
  /-- How the lines are aligned. -/
  justification : Justification
  deriving DecidableEq, Repr

/-- The colour in which a shape is printed. -/
inductive Ink where
  | black
  | white
  deriving DecidableEq, Repr, Inhabited

/-- How the character set of a Code 128 symbol is chosen. -/
inductive Code128Mode where
  /-- By invocations that the data hold. -/
  | normal
  /-- So that the symbol stays short. -/
  | automatic
  deriving DecidableEq, Repr, Inhabited

/-- The layout of a barcode made of upright bars. -/
structure BarLayout where
  /-- The direction in which it is read. -/
  orientation : Orientation
  /-- The width of the narrowest bar. -/
  moduleWidth : Nat
  /-- The height of the bars. -/
  height : Nat
  /-- Whether the data are also printed as text. -/
  interpretation : Bool
  /-- Whether this text stands above the bars. -/
  interpretationAbove : Bool
  deriving DecidableEq, Repr

/-- How much damage a QR symbol withstands. -/
inductive QrLevel where
  | low
  | medium
  | quartile
  | high
  deriving DecidableEq, Repr

instance : Inhabited QrLevel where
  default := .quartile

/-- The level that a letter stands for, in either case. -/
def QrLevel.ofCode? (code : Char) : Option QrLevel :=
  match code.toUpper with
  | 'L' => some .low
  | 'M' => some .medium
  | 'Q' => some .quartile
  | 'H' => some .high
  | _ => none

/-- What a field prints. -/
inductive Content where
  /-- A line of text, or a block of lines. -/
  | text (text : String) (lettering : Lettering) (block : Option Block)
  /-- A Code 128 barcode. -/
  | code128 (data : String) (layout : BarLayout) (mode : Code128Mode)
  /-- An EAN-13 barcode. -/
  | ean13 (data : String) (layout : BarLayout)
  /-- A QR symbol; without a magnification the print density decides. -/
  | qr (data : String) (level : QrLevel) (magnification : Option Nat)
  /-- The outline of a box; the corners are rounded by zero to eight eighths. -/
  | box (width height thickness : Nat) (ink : Ink) (rounding : Nat)
  /-- The outline of a circle. -/
  | circle (diameter thickness : Nat) (ink : Ink)
  /-- The outline of an ellipse. -/
  | ellipse (width height thickness : Nat) (ink : Ink)
  /-- A bitmap; each row has `rowBytes` bytes, the most significant bit is the leftmost dot. -/
  | bitmap (rowBytes rows : Nat) (data : Array UInt8)
  deriving DecidableEq, Repr

/-- A field in its place. -/
structure Element where
  /-- Where the field stands. -/
  origin : Origin
  /-- Whether the field inverts what it covers. -/
  reverse : Bool
  /-- What the field prints. -/
  content : Content
  deriving DecidableEq, Repr

/-- A label. -/
structure Label where
  /-- The width that holds if none is configured. -/
  printWidth : Option Nat := none
  /-- The height that holds if none is configured. -/
  length : Option Nat := none
  /-- Whether the finished label is turned upside down. -/
  inverted : Bool := false
  /-- The fields in the order in which they are printed. -/
  elements : Array Element := #[]
  deriving DecidableEq, Repr, Inhabited

end LabelPress
