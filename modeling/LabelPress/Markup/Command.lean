import LabelPress.Markup.Graphic
import LabelPress.Markup.Parameters
import LabelPress.Markup.Token

/-!
# Commands

What a command asks for, with its parameters read.  A command that is not known asks for nothing.
Reading a command does not depend on the commands before it: what is left open (a name, a height)
is filled in when the command is carried out.
-/

namespace LabelPress.Markup

/-- What a barcode command asks for. -/
structure BarRequest where
  /-- The direction of the barcode. -/
  orientation : Option Orientation
  /-- The height of the bars. -/
  height : Option Nat
  /-- Whether the data are also printed as text. -/
  interpretation : Bool
  /-- Whether this text stands above the bars. -/
  interpretationAbove : Bool
  deriving DecidableEq, Repr

/-- What a font command asks for. -/
structure FontRequest where
  /-- The name of the font. -/
  name : Option Char
  /-- The direction of the text. -/
  orientation : Option Orientation
  /-- The height of a character. -/
  height : Option Nat
  /-- The width of a character. -/
  width : Option Nat
  deriving DecidableEq, Repr

/-- What a field shall print. -/
inductive Request where
  /-- A Code 128 barcode of the field data. -/
  | code128 (bars : BarRequest) (mode : Code128Mode)
  /-- An EAN-13 barcode of the field data. -/
  | ean13 (bars : BarRequest)
  /-- A QR symbol of the field data. -/
  | qr (magnification : Option Nat)
  /-- A shape or a bitmap, whatever the field data are. -/
  | graphic (content : Content)
  deriving DecidableEq, Repr

/-- A command. -/
inductive Command where
  /-- Sets the point from which the origins of later fields are counted. -/
  | home (x y : Int)
  /-- Sets whether later fields invert what they cover. -/
  | reverseAll (on : Bool)
  /-- Sets the width of the label. -/
  | printWidth (dots : Option Nat)
  /-- Sets the length of the label. -/
  | labelLength (dots : Option Nat)
  /-- Sets whether the label is printed upside down. -/
  | invert (on : Bool)
  /-- Changes the letters of fields that choose none. -/
  | defaultFont (font : FontRequest)
  /-- Changes the direction of fields that choose none. -/
  | defaultOrientation (orientation : Option Orientation)
  /-- Changes the defaults of later barcodes. -/
  | barDefaults (moduleWidth height : Option Nat)
  /-- Chooses the letters of the field. -/
  | font (font : FontRequest)
  /-- Chooses the place of the field, counted from the label home. -/
  | origin (x y : Int) (anchor : Anchor)
  /-- Gives the field its data. -/
  | data (text : List Char)
  /-- Makes the field invert what it covers. -/
  | reverse
  /-- Announces escapes in the field data. -/
  | escapes (indicator : Char)
  /-- Wraps the text of the field into a block. -/
  | block (block : Block)
  /-- Makes the field print something other than plain text. -/
  | request (request : Request)
  /-- Ends the field. -/
  | endField
  /-- Asks for nothing. -/
  | nothing
  deriving DecidableEq, Repr

namespace Command

/-- The place that an origin command names. -/
def readOrigin (parameters : Parameters) (anchor : Anchor) : Except MarkupError Command := do
  let x ← parameters.signed 0
  let y ← parameters.signed 1
  return .origin (x.getD 0) (y.getD 0) anchor

/-- The label home that a command names. -/
def readHome (parameters : Parameters) : Except MarkupError Command := do
  let x ← parameters.signed 0
  let y ← parameters.signed 1
  return .home (x.getD 0) (y.getD 0)

/-- The letters that a command names; the name itself is read elsewhere. -/
def readFont (name : Option Char) (parameters : Parameters) :
    Except MarkupError FontRequest := do
  let height ← parameters.unsigned 1
  let width ← parameters.unsigned 2
  return ⟨name, (parameters.letter? 0).bind Orientation.ofCode?, height, width⟩

/-- The parameters of a barcode command. -/
def readBars (parameters : Parameters) : Except MarkupError BarRequest := do
  let height ← parameters.unsigned 1
  return {
    orientation := (parameters.letter? 0).bind Orientation.ofCode?
    height
    interpretation := (parameters.flag? 2).getD true
    interpretationAbove := (parameters.flag? 3).getD false }

/-- The defaults of barcodes that a command names. -/
def readBarDefaults (parameters : Parameters) : Except MarkupError Command := do
  let width ← parameters.unsigned 0
  let height ← parameters.unsigned 2
  return .barDefaults (width.map fun dots => max 1 (min dots 10)) height

/-- The block that a command names. -/
def readBlock (parameters : Parameters) : Except MarkupError Command := do
  let width ← parameters.unsigned 0
  let maxLines ← parameters.unsigned 1
  let lineSpacing ← parameters.signed 2
  let justification :=
    match parameters.letter? 3 with
    | some 'C' => Justification.center
    | some 'R' => .right
    | some 'J' => .justified
    | _ => .left
  return .block ⟨width.getD 0, max (maxLines.getD 1) 1, lineSpacing.getD 0, justification⟩

/-- The box that a command names. -/
def readBox (parameters : Parameters) : Except MarkupError Content := do
  let thickness := max ((← parameters.unsigned 2).getD 1) 1
  let width ← parameters.unsigned 0
  let height ← parameters.unsigned 1
  let rounding ← parameters.unsigned 4
  return .box (max (width.getD thickness) thickness) (max (height.getD thickness) thickness)
    thickness (parameters.ink 3) (min (rounding.getD 0) 8)

/-- The circle that a command names. -/
def readCircle (parameters : Parameters) : Except MarkupError Content := do
  let diameter ← parameters.unsigned 0
  let thickness ← parameters.unsigned 1
  return .circle (max (diameter.getD 3) 3) (max (thickness.getD 1) 1) (parameters.ink 2)

/-- The ellipse that a command names. -/
def readEllipse (parameters : Parameters) : Except MarkupError Content := do
  let thickness := max ((← parameters.unsigned 2).getD 1) 1
  let width ← parameters.unsigned 0
  let height ← parameters.unsigned 1
  return .ellipse (max (width.getD thickness) thickness) (max (height.getD thickness) thickness)
    thickness (parameters.ink 3)

/-- The bitmap that a command names. -/
def readBitmap (params : List Char) : Except MarkupError Content :=
  match Graphic.ofParams params with
  | .ok content => .ok content
  | .error fault => .error (.graphic fault.message)

/-- The Code 128 barcode that a command names. -/
def readCode128 (parameters : Parameters) : Except MarkupError Command := do
  let bars ← readBars parameters
  let mode := if parameters.letter? 5 = some 'A' then Code128Mode.automatic else .normal
  return .request (.code128 bars mode)

/-- The character that announces escapes: the first that is not blank, or an underscore. -/
def indicator (params : List Char) : Char :=
  (Text.trim params).headD '_'

/-- Reads the parameters of a command with the given code. -/
def read (code params : List Char) : Except MarkupError Command :=
  let parameters := Parameters.ofText code params
  match code with
  | ['L', 'H'] => readHome parameters
  | ['L', 'R'] => .ok (.reverseAll ((parameters.flag? 0).getD false))
  | ['P', 'W'] => (parameters.unsigned 0).map .printWidth
  | ['L', 'L'] => (parameters.unsigned 0).map .labelLength
  | ['P', 'O'] => .ok (.invert (parameters.letter? 0 = some 'I'))
  | ['C', 'F'] => (readFont (parameters.letter? 0) parameters).map .defaultFont
  | ['A'] =>
    (readFont (params.head?.map Char.toUpper) (Parameters.ofText code params.tail)).map .font
  | ['F', 'W'] => .ok (.defaultOrientation ((parameters.letter? 0).bind Orientation.ofCode?))
  | ['F', 'O'] => readOrigin parameters .topLeft
  | ['F', 'T'] => readOrigin parameters .baseline
  | ['F', 'D'] | ['F', 'V'] => .ok (.data params)
  | ['F', 'S'] => .ok .endField
  | ['F', 'R'] => .ok .reverse
  | ['F', 'H'] => .ok (.escapes (indicator params))
  | ['F', 'B'] => readBlock parameters
  | ['B', 'Y'] => readBarDefaults parameters
  | ['B', 'C'] => readCode128 parameters
  | ['B', 'E'] => (readBars parameters).map fun bars => .request (.ean13 bars)
  | ['B', 'Q'] =>
    (parameters.unsigned 2).map fun magnification =>
      .request (.qr (magnification.map fun dots => max 1 (min dots 10)))
  | ['G', 'B'] => (readBox parameters).map fun content => .request (.graphic content)
  | ['G', 'C'] => (readCircle parameters).map fun content => .request (.graphic content)
  | ['G', 'E'] => (readEllipse parameters).map fun content => .request (.graphic content)
  | ['G', 'F'] => (readBitmap params).map fun content => .request (.graphic content)
  | _ => .ok .nothing

/-- The command that a token stands for; tokens that open with a tilde ask for nothing. -/
def ofToken (token : Token) : Except MarkupError Command :=
  match token.lead with
  | .caret => read token.code token.params
  | .tilde => .ok .nothing

end Command

end LabelPress.Markup
