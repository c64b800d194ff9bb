import LabelPress.Canvas
import LabelPress.Font
import LabelPress.Font.Coverage
import LabelPress.Text.Blank
import LabelPress.Text.Wrapping

/-!
# Typesetting

Text is drawn glyph by glyph along a line.  A block of text is wrapped into lines, which are
aligned between its edges; justified lines, all but the last, spread their words over the width.
-/

namespace LabelPress.Typesetting

open LabelPress.Font
open LabelPress.Text

/-- The width and the height of characters in dots. -/
structure Scale where
  x : Float32
  y : Float32

/-- The scale of letters; letters without a width have the proportions of the font. -/
def Scale.ofLettering (lettering : Lettering) : Scale :=
  let height := Float32.ofNat (max lettering.height 1)
  ⟨if lettering.width = 0 then height else Float32.ofNat lettering.width, height⟩

/-- The scale of letters that are as wide as high. -/
def Scale.square (size : Nat) : Scale :=
  ⟨Float32.ofNat size, Float32.ofNat size⟩

/-- A font at a scale. -/
structure Face where
  font : Font
  /-- Dots for each font unit along the line. -/
  horizontal : Float32
  /-- Dots for each font unit across the line. -/
  vertical : Float32

namespace Face

/-- The font at a scale. -/
def ofFont (font : Font) (scale : Scale) : Face :=
  let height := Float32.ofInt font.ascent - Float32.ofInt font.descent
  ⟨font, scale.x / height, scale.y / height⟩

/-- The height above the baseline. -/
def ascent (face : Face) : Float32 :=
  face.vertical * Float32.ofInt face.font.ascent

/-- The height of the lower end of letters. -/
def descent (face : Face) : Float32 :=
  face.vertical * Float32.ofInt face.font.descent

/-- How far the pen moves on behind a glyph. -/
def advance (face : Face) (glyph : Nat) : Float32 :=
  face.horizontal * Float32.ofNat (face.font.advance glyph)

/-- The distance by which a pair of glyphs is moved. -/
def kern (face : Face) (first second : Nat) : Float32 :=
  face.horizontal * Float32.ofInt (face.font.kern first second)

/-- The height of a line in whole dots; at least one, also where the font has no height. -/
def lineHeight (face : Face) : Nat :=
  (max 1 (face.ascent - face.descent).ceil).toUInt32.toNat

/-- The height above the baseline in whole dots. -/
def baseline (face : Face) : Nat :=
  (max 0 face.ascent.ceil).toUInt32.toNat

/-- The width of glyphs, the first of which follows `last` at `pen`. -/
def widthFrom (face : Face) (pen : Float32) (last : Option Nat) : List Nat → Float32
  | [] => pen
  | glyph :: glyphs =>
    let pen :=
      match last with
      | some last => pen + face.kern last glyph
      | none => pen
    face.widthFrom (pen + face.advance glyph) (some glyph) glyphs

/-- The width of a text in whole dots. -/
def measure (face : Face) (text : List Char) : Nat :=
  (max 0 (face.widthFrom 0 none (text.map face.font.glyph)).ceil).toUInt32.toNat

end Face

/-- The whole part of a number. -/
def whole (number : Float32) : Float32 :=
  if number < 0 then number.ceil else number.floor

/-- A number rounded to the nearest whole one, a half away from zero. -/
def rounded (number : Float32) : Int :=
  number.round.toInt32.toInt

/-- The dots that a glyph may cover: the nearest whole numbers outside its bounds. -/
structure GlyphBox where
  left : Float32
  top : Float32
  right : Float32
  bottom : Float32

/-- The dots that a glyph may cover whose origin stands at `(x, y)`. -/
def glyphBox (face : Face) (bounds : Bounds) (x y : Float32) : GlyphBox :=
  let down := -face.vertical
  let partX := x - whole x
  let partY := y - whole y
  ⟨(Float32.ofInt bounds.left * face.horizontal + partX).floor + whole x,
    (Float32.ofInt bounds.top * down + partY).floor + whole y,
    (Float32.ofInt bounds.right * face.horizontal + partX).ceil + whole x,
    (Float32.ofInt bounds.bottom * down + partY).ceil + whole y⟩

/-- The coverage of the dots of a glyph box, of which the first `rows` rows are needed. -/
def glyphField (face : Face) (outline : Outline) (box : GlyphBox) (x y : Float32) (rows : Nat) :
    AreaField :=
  let down := -face.vertical
  let offset : Spot := ⟨x - box.left, y - box.top⟩
  let place (spot : Spot) : Spot :=
    Spot.add ⟨spot.x * face.horizontal, spot.y * down⟩ offset
  let width := (box.right - box.left).toUInt32.toNat
  let height := (box.bottom - box.top).toUInt32.toNat
  outline.curves.foldl
    (fun field curve =>
      match curve.map place with
      | .line start finish => field.drawLine start finish
      | .quadratic start control finish => field.drawQuadratic start control finish)
    (AreaField.blank width (min height rows))

/-- The coverage of a dot after a share of it is covered once more. -/
def blend (share : Float32) (coverage : UInt8) : UInt8 :=
  let share := max 0 (min share 1)
  (Float32.ofNat coverage.toNat * (1 - share) + 255 * share).toUInt8

/-- Draws a field of shares with its top left corner at `(x, y)`, which may lie outside. -/
def drawField (mask : Mask) (x y : Int) (field : AreaField) : Mask :=
  let hiddenColumns := (-x).toNat
  let hiddenRows := (-y).toNat
  let shares := field.sharesBelow hiddenRows
  mask.updateRect x.toNat y.toNat (field.width - hiddenColumns) (field.height - hiddenRows)
    fun column row coverage =>
      blend (shares.getD (row * field.width + (hiddenColumns + column)) 0) coverage

/--
Draws characters from the pen on.  A glyph without an outline moves the pen only; kerning with the
glyph drawn last is applied behind a glyph and not in front of it.
-/
def drawFrom (face : Face) (x y : Int) (pen : Float32) (last : Option Nat) (mask : Mask) :
    List Char → Mask
  | [] => mask
  | character :: rest =>
    let glyph := face.font.glyph character
    let behind := pen + face.advance glyph
    match face.font.outline? glyph with
    | none => drawFrom face x y behind last mask rest
    | some outline =>
      let box := glyphBox face outline.bounds pen face.ascent
      let top := y + rounded box.top
      let field := glyphField face outline box pen face.ascent (mask.height - top).toNat
      let mask := drawField mask (x + rounded box.left) top field
      let behind :=
        match last with
        | some last => behind + face.kern glyph last
        | none => behind
      drawFrom face x y behind (some glyph) mask rest

/-- Draws a text whose line begins at `(x, y)`. -/
def drawText (face : Face) (mask : Mask) (x y : Int) (text : List Char) : Mask :=
  drawFrom face x y 0 none mask text

/-- A line of text. -/
def line (face : Face) (text : List Char) : Stamp :=
  let mask := Mask.blank (clampSide (face.measure text)) (clampSide face.lineHeight)
  ⟨drawText face mask 0 0 text, face.baseline⟩

/-- Draws words with equal gaps between them from column `x` on. -/
def drawWords (face : Face) (y : Int) (gap x : Float32) (mask : Mask) : List (List Char) → Mask
  | [] => mask
  | word :: words =>
    drawWords face y gap (x + (Float32.ofNat (face.measure word) + gap))
      (drawText face mask (rounded x) y word) words

/-- Draws a line whose words are spread over the width. -/
def drawSpread (face : Face) (width : Nat) (mask : Mask) (y : Int) (text : List Char) : Mask :=
  let words := words text
  if words.length < 2 then drawText face mask 0 y text
  else
    let used := words.foldl (fun width word => width + face.measure word) 0
    let gap := Float32.ofNat (width - used) / Float32.ofNat (words.length - 1)
    drawWords face y gap 0 mask words

/-- Where a line begins that is not spread. -/
def indent (justification : Justification) (width lineWidth : Nat) : Nat :=
  match justification with
  | .center => (width - lineWidth) / 2
  | .right => width - lineWidth
  | .left | .justified => 0

/-- Draws the lines of a block, the first of them at row `y`. -/
def drawLines (face : Face) (justification : Justification) (width advance : Nat) (y : Nat)
    (mask : Mask) : List (List Char) → Mask
  | [] => mask
  | text :: rest =>
    let mask :=
      if justification = .justified ∧ rest ≠ [] then drawSpread face width mask y text
      else drawText face mask (indent justification width (face.measure text)) y text
    drawLines face justification width advance (y + advance) mask rest

/-- A block of text; its baseline is that of the last line. -/
def block (face : Face) (text : List Char) (block : Block) : Stamp :=
  let lines := blockLines face.measure block.width block.maxLines text
  let advance := (max (face.lineHeight + block.lineSpacing) 1).toNat
  let widest := (lines.map face.measure).foldl max 0
  let width := clampSide (if 0 < block.width then block.width else widest)
  let lastTop := advance * (lines.length - 1)
  let height := clampSide (lastTop + face.lineHeight : Nat)
  let mask := Mask.blank width height
  let mask := drawLines face block.justification width advance 0 mask lines
  ⟨mask, clampSide (lastTop + face.baseline : Nat)⟩

end LabelPress.Typesetting
