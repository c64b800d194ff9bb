import LabelPress.Png
import LabelPress.Shapes
import LabelPress.Symbology.Bars
import LabelPress.Symbology.Code128
import LabelPress.Symbology.Ean13
import LabelPress.Symbology.Qr.Symbol
import LabelPress.Text.Utf8
import LabelPress.Typesetting

/-!
# Drawing of labels

The canvas of a label has its configured size, or its own where none is configured.  The elements
are drawn in their order: each is made into an upright stamp, turned, placed and painted.  Text
needs a font, the configured one or the first that is found, and is left out without one.  A label
that is inverted is turned upside down in the end.
-/

namespace LabelPress

/-- A reason for which data cannot be printed as a barcode. -/
inductive BarcodeFault where
  | code128 (fault : Code128.Fault)
  | ean13 (fault : Ean13.Fault)
  /-- No QR symbol holds the data. -/
  | qrTooLong
  /-- The symbol has too many dots. -/
  | oversize (fault : Bars.Oversize)
  deriving DecidableEq, Repr

/-- The text of a fault. -/
def BarcodeFault.message : BarcodeFault → String
  | code128 fault => fault.message
  | ean13 fault => fault.message
  | qrTooLong => "QR encode error: data too long"
  | oversize fault => fault.message

/-- A reason for which a label cannot be drawn. -/
inductive DrawError where
  /-- A side of the canvas is outside one to `maxDots` dots. -/
  | dimensions (width height : Int)
  /-- The print density is not positive. -/
  | density (dotsPerMm : Int)
  /-- The configured font cannot be loaded. -/
  | font (path reason : String)
  /-- The data of a barcode cannot be printed. -/
  | barcode (fault : BarcodeFault)
  /-- The picture cannot be written. -/
  | encode (error : Png.EncodeError)
  deriving DecidableEq, Repr

/-- The text of an error. -/
def DrawError.message : DrawError → String
  | dimensions width height =>
    "invalid label dimensions " ++ toString width ++ "x" ++ toString height ++ " dots"
  | density dotsPerMm => "invalid print density " ++ toString dotsPerMm ++ " dots/mm"
  | font path reason => "loading font " ++ path ++ ": " ++ reason
  | barcode fault => "barcode: " ++ fault.message
  | encode error => error.message

/-- What is known about a label besides its markup. -/
structure DrawOptions where
  /-- The width in millimetres; zero leaves it to the label. -/
  widthMm : Float := 0
  /-- The height in millimetres; zero leaves it to the label. -/
  heightMm : Float := 0
  /-- The print density. -/
  dotsPerMm : Int := 0
  /-- The file of the font for text; without one, other files are tried. -/
  fontPath : Option String := none

/-- Where a font for text is found. -/
structure FontSource (m : Type → Type) where
  /-- Whether there is a file at a path. -/
  isFile : String → m Bool
  /-- The bytes of a file, or the reason for which there are none. -/
  load : String → m (Except String (List UInt8))
  /-- The paths that are tried in turn where no font is configured. -/
  fallbacks : List String := []

namespace Drawing

/-- The files in which a Linux system usually keeps a font for text. -/
def systemFonts : List String :=
  ["/usr/share/fonts/truetype/dejavu/DejaVuSans.ttf",
    "/usr/share/fonts/dejavu/DejaVuSans.ttf",
    "/usr/share/fonts/TTF/DejaVuSans.ttf",
    "/usr/share/fonts/truetype/liberation/LiberationSans-Regular.ttf",
    "/usr/share/fonts/liberation-sans/LiberationSans-Regular.ttf",
    "/usr/share/fonts/truetype/freefont/FreeSans.ttf"]

/-- The dots of a length; a length of zero falls back to the label's own. -/
def dots (mm : Float) (dotsPerMm : Int) (fallback : Option Nat) : Int :=
  if mm == 0 then fallback.getD 0
  else (mm * Float.ofInt dotsPerMm).round.toInt64.toInt

/-- The sides of the canvas, width first. -/
def canvasSize (label : Label) (options : DrawOptions) : Except DrawError (Nat × Nat) :=
  if options.dotsPerMm ≤ 0 then .error (.density options.dotsPerMm)
  else
    let width := dots options.widthMm options.dotsPerMm label.printWidth
    let height := dots options.heightMm options.dotsPerMm label.length
    if 1 ≤ width ∧ width ≤ maxDots ∧ 1 ≤ height ∧ height ≤ maxDots then
      .ok (width.toNat, height.toNat)
    else .error (.dimensions width height)

/-- The size of the text beside bars, in dots. -/
def interpretationSize (moduleWidth : Nat) : Nat :=
  max 10 (min (9 * moduleWidth) 60)

/-- The text beside bars, if it is wanted and there is a font. -/
def interpretation (font : Option Font) (layout : BarLayout) (text : List Char) : Option Mask :=
  match font with
  | some font =>
    if layout.interpretation ∧ text ≠ [] then
      let scale := Typesetting.Scale.square (interpretationSize (max layout.moduleWidth 1))
      some (Typesetting.line (Typesetting.Face.ofFont font scale) text).mask
    else none
  | none => none

/-- The bars of modules and the text that they stand for. -/
def barStamp (font : Option Font) (layout : BarLayout) (modules : List Bool) (text : List Char) :
    Except BarcodeFault Stamp :=
  match Bars.stamp modules layout (interpretation font layout text) with
  | .ok stamp => .ok stamp
  | .error fault => .error (.oversize fault)

/-- The stamp of a Code 128 barcode. -/
def code128Stamp (font : Option Font) (data : String) (layout : BarLayout) (mode : Code128Mode) :
    Except BarcodeFault Stamp :=
  match Code128.encode data.toList mode with
  | .ok symbol => barStamp font layout symbol.modules symbol.text
  | .error fault => .error (.code128 fault)

/-- The stamp of an EAN-13 barcode. -/
def ean13Stamp (font : Option Font) (data : String) (layout : BarLayout) :
    Except BarcodeFault Stamp :=
  match Ean13.normalize data.toList with
  | .ok digits => barStamp font layout (Ean13.modules digits) (Ean13.text digits)
  | .error fault => .error (.ean13 fault)

/-- The stamp of a QR symbol. -/
def qrStamp (data : String) (level : QrLevel) (magnification : Nat) : Except BarcodeFault Stamp :=
  match Qr.encode? (Text.encode data.toList) level with
  | some modules => .ok (.onBottom (Qr.magnify modules magnification))
  | none => .error .qrTooLong

/-- The stamp of text. -/
def textStamp (font : Font) (text : String) (lettering : Lettering) (block : Option Block) :
    Stamp :=
  let face := Typesetting.Face.ofFont font (.ofLettering lettering)
  match block with
  | some block => Typesetting.block face text.toList block
  | none => Typesetting.line face text.toList

/-- The upright stamp of what a field prints; text has none without a font. -/
def stamp? (font : Option Font) (dotsPerMm : Int) :
    Content → Except BarcodeFault (Option Stamp)
  | .text text lettering block => .ok (font.map (textStamp · text lettering block))
  | .code128 data layout mode => (code128Stamp font data layout mode).map some
  | .ean13 data layout => (ean13Stamp font data layout).map some
  | .qr data level magnification =>
    (qrStamp data level (magnification.getD (Qr.defaultMagnification dotsPerMm))).map some
  | .box width height thickness _ rounding =>
    .ok (some (.onBottom (Shapes.box width height thickness rounding)))
  | .circle diameter thickness _ =>
    .ok (some (.onBottom (Shapes.ellipse diameter diameter thickness)))
  | .ellipse width height thickness _ =>
    .ok (some (.onBottom (Shapes.ellipse width height thickness)))
  | .bitmap rowBytes rows data => .ok (some (.onBottom (Shapes.bitmap rowBytes rows data)))

end Drawing

/-- The turn that brings an upright stamp into the direction of the field. -/
def Content.turn : Content → Turn
  | text _ lettering _ => lettering.orientation.turn
  | code128 _ layout _ => layout.orientation.turn
  | ean13 _ layout => layout.orientation.turn
  | qr .. | box .. | circle .. | ellipse .. | bitmap .. => .upright

/-- The ink in which a field is printed. -/
def Content.ink : Content → Ink
  | box _ _ _ ink _ => ink
  | circle _ _ ink => ink
  | ellipse _ _ _ ink => ink
  | text .. | code128 .. | ean13 .. | qr .. | bitmap .. => .black

/-- How an element changes the dots that it covers. -/
def Element.paint (element : Element) : Paint :=
  if element.reverse then .reverse
  else
    match element.content.ink with
    | .black => .black
    | .white => .white

namespace Drawing

/-- Turns a stamp, places it and paints it onto the canvas. -/
def press (canvas : Canvas) (element : Element) (stamp : Stamp) : Canvas :=
  let position := stamp.position element.content.turn element.origin
  Mask.paintOnto (stamp.mask.turn element.content.turn) canvas position.1 position.2 element.paint

/-- Draws an element. -/
def drawElement (font : Option Font) (dotsPerMm : Int) (canvas : Canvas) (element : Element) :
    Except DrawError Canvas :=
  match stamp? font dotsPerMm element.content with
  | .ok (some stamp) => .ok (press canvas element stamp)
  | .ok none => .ok canvas
  | .error fault => .error (.barcode fault)

/-- The font in the bytes of a file, or the reason for which there are none. -/
def readFont (path : String) (file : Except String (List UInt8)) : Except DrawError Font :=
  match file with
  | .error reason => .error (.font path reason)
  | .ok bytes =>
    match Font.ofFile? bytes.toByteArray with
    | some font => .ok font
    | none => .error (.font path "InvalidFont")

section Fonts

variable {m : Type → Type} [Monad m] (fonts : FontSource m)

/-- The first font at some paths; one without a file, or with a file that is no font, is skipped. -/
def firstFont? : List String → m (Option Font)
  | [] => return none
  | path :: paths => do
    if ← fonts.isFile path then
      match readFont path (← fonts.load path) with
      | .ok font => return some font
      | .error _ => firstFont? paths
    else firstFont? paths

/-- The configured font, or the first one that is found if none is configured. -/
def loadFont (fontPath : Option String) : m (Except DrawError (Option Font)) := do
  match fontPath with
  | some path => return (readFont path (← fonts.load path)).map some
  | none => return .ok (← firstFont? fonts fonts.fallbacks)

end Fonts

/-- Draws the elements of a label onto a blank canvas, and turns the canvas if it is inverted. -/
def drawElements (label : Label) (dotsPerMm : Int) (font : Option Font) (width height : Nat) :
    Except DrawError Canvas := do
  let canvas ← label.elements.foldlM (drawElement font dotsPerMm) (Canvas.blank width height)
  return if label.inverted then canvas.turn .half else canvas

section Labels

variable {m : Type → Type} [Monad m] (fonts : FontSource m)

/-- Draws a label; the font is loaded once the size of the canvas is known to be right. -/
def draw (label : Label) (options : DrawOptions) : m (Except DrawError Canvas) := do
  match canvasSize label options with
  | .error error => return .error error
  | .ok (width, height) =>
    match ← loadFont fonts options.fontPath with
    | .error error => return .error error
    | .ok font => return drawElements label options.dotsPerMm font width height

/-- Draws a label and writes its picture. -/
def drawFile (label : Label) (options : DrawOptions) : m (Except DrawError (List UInt8)) := do
  match ← draw fonts label options with
  | .error error => return .error error
  | .ok canvas => return (Png.encode (.ofCanvas canvas)).mapError .encode

end Labels

end Drawing

end LabelPress
