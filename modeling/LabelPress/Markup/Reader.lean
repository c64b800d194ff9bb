import LabelPress.Markup.Command
import LabelPress.Markup.HexEscape

/-!
# Reading labels from markup

A label opens with `^XA` and closes with `^XZ`, with the next `^XA` or with the end of the markup.
Its commands act on settings that hold for the rest of the label and on the field that is open; the
end of a field turns the field into an element and opens a new one.  A field that is open when the
label closes ends there, if it has data or asks for something to be printed.
-/

namespace LabelPress.Markup

/-- What an open field prints, with the settings of the label filled in. -/
inductive Printing where
  /-- A Code 128 barcode of the field data. -/
  | code128 (layout : BarLayout) (mode : Code128Mode)
  /-- An EAN-13 barcode of the field data. -/
  | ean13 (layout : BarLayout)
  /-- A QR symbol of the field data. -/
  | qr (magnification : Option Nat)
  /-- A shape or a bitmap. -/
  | graphic (content : Content)
  deriving DecidableEq, Repr

/-- The open field. -/
structure Field where
  /-- Its place, if one is chosen. -/
  origin : Option Origin := none
  /-- Its letters, if any are chosen. -/
  lettering : Option Lettering := none
  /-- Its data, escapes already replaced. -/
  data : Option (List Char) := none
  /-- The character that announces escapes in its data. -/
  indicator : Option Char := none
  /-- Whether it inverts what it covers. -/
  reverse : Bool := false
  /-- The block into which its text is wrapped. -/
  block : Option Block := none
  /-- What it prints, if not plain text. -/
  printing : Option Printing := none
  deriving DecidableEq, Repr, Inhabited

/-- The settings of a label that its fields read. -/
structure Settings where
  /-- The point from which origins are counted. -/
  home : Int × Int := (0, 0)
  /-- Whether every field inverts what it covers. -/
  reverseAll : Bool := false
  /-- The letters of fields that choose none, in upright direction. -/
  lettering : Lettering := default
  /-- The direction of fields that choose none. -/
  orientation : Orientation := .normal
  /-- The width of the narrowest bar. -/
  moduleWidth : Nat := 2
  /-- The height of bars. -/
  barHeight : Nat := 10
  deriving DecidableEq, Repr, Inhabited

/-- A label that is being read. -/
structure LabelState where
  /-- The elements and sizes that are known so far. -/
  label : Label := {}
  /-- The settings in force. -/
  settings : Settings := {}
  /-- The open field. -/
  field : Field := {}
  deriving DecidableEq, Repr, Inhabited

namespace Settings

/-- A place counted from the label home. -/
def place (settings : Settings) (x y : Int) (anchor : Anchor) : Origin :=
  ⟨settings.home.1 + x, settings.home.2 + y, anchor⟩

/-- The width of letters: a height without a width keeps them in proportion. -/
def letterWidth (settings : Settings) (font : FontRequest) : Nat :=
  font.width.getD (if font.height.isSome then 0 else settings.lettering.width)

/-- The letters of a field that names a font. -/
def letters (settings : Settings) (font : FontRequest) : Lettering where
  name := font.name.getD settings.lettering.name
  orientation := font.orientation.getD settings.orientation
  height := font.height.getD settings.lettering.height
  width := settings.letterWidth font

/-- The letters of later fields after a change of the default. -/
def changeDefault (settings : Settings) (font : FontRequest) : Lettering where
  name := font.name.getD settings.lettering.name
  orientation := settings.lettering.orientation
  height := font.height.getD settings.lettering.height
  width := settings.letterWidth font

/-- The letters of a field that chooses none. -/
def plainLetters (settings : Settings) : Lettering :=
  { settings.lettering with orientation := settings.orientation }

/-- The layout of a barcode. -/
def layout (settings : Settings) (bars : BarRequest) : BarLayout where
  orientation := bars.orientation.getD settings.orientation
  moduleWidth := settings.moduleWidth
  height := bars.height.getD settings.barHeight
  interpretation := bars.interpretation
  interpretationAbove := bars.interpretationAbove

/-- What a field prints that asks for something other than plain text. -/
def printing (settings : Settings) : Request → Printing
  | .code128 bars mode => .code128 (settings.layout bars) mode
  | .ean13 bars => .ean13 (settings.layout bars)
  | .qr magnification => .qr magnification
  | .graphic content => .graphic content

end Settings

/-- A text without its first `size` bytes; nothing is left if a character stands across there. -/
def dropBytes : Nat → List Char → List Char
  | 0, text => text
  | _ + 1, [] => []
  | size + 1, character :: rest =>
    if size + 1 < character.utf8Size then []
    else dropBytes (size + 1 - character.utf8Size) rest

/-- The number of bytes of a text. -/
def byteLength (text : List Char) : Nat :=
  text.foldl (fun length character => length + character.utf8Size) 0

/--
The level and the data of a QR field.  Up to four bytes before the first comma are switches: the
level and then `M` for manual input, in which the data open with the letter of a character mode,
behind which binary data have a length of four digits.  Without switches all is data.
-/
def qrData (data : List Char) : QrLevel × List Char :=
  match Graphic.splitComma data with
  | (switches, some payload) =>
    if byteLength switches ≤ 4 then
      let level := (switches.head?.bind QrLevel.ofCode?).getD default
      let manual := switches.tail.head?.map Char.toUpper = some 'M'
      match payload with
      | mode :: rest =>
        if ¬manual then (level, payload)
        else if mode.toUpper = 'B' then (level, dropBytes 5 payload)
        else if mode.toUpper = 'N' ∨ mode.toUpper = 'A' ∨ mode.toUpper = 'K' then (level, rest)
        else (level, payload)
      | [] => (level, [])
    else (default, data)
  | (_, none) => (default, data)

/-- What the field prints; nothing if it has no data to print. -/
def Field.content? (field : Field) (settings : Settings) : Option Content :=
  match field.printing, field.data with
  | some (.graphic content), _ => some content
  | some (.code128 layout mode), some data => some (.code128 (String.ofList data) layout mode)
  | some (.ean13 layout), some data => some (.ean13 (String.ofList data) layout)
  | some (.qr magnification), some data =>
    some (.qr (String.ofList (qrData data).2) (qrData data).1 magnification)
  | none, some text =>
    some (.text (String.ofList text) (field.lettering.getD settings.plainLetters) field.block)
  | _, none => none

/-- The element that the field becomes. -/
def Field.element? (field : Field) (settings : Settings) : Option Element :=
  (field.content? settings).map fun content =>
    { origin := field.origin.getD (settings.place 0 0 .topLeft)
      reverse := field.reverse || settings.reverseAll
      content }

namespace LabelState

/-- Ends the open field. -/
def endField (state : LabelState) : LabelState :=
  match state.field.element? state.settings with
  | some element =>
    { state with
      label := { state.label with elements := state.label.elements.push element }, field := {} }
  | none => { state with field := {} }

/-- The text of field data, escapes replaced if the field announces any. -/
def fieldData (state : LabelState) (text : List Char) : Except MarkupError (List Char) :=
  match state.field.indicator with
  | some indicator => HexEscape.decode indicator text
  | none => .ok text

/-- Carries out a command. -/
def apply (state : LabelState) : Command → Except MarkupError LabelState
  | .home x y => .ok { state with settings := { state.settings with home := (x, y) } }
  | .reverseAll on => .ok { state with settings := { state.settings with reverseAll := on } }
  | .printWidth dots => .ok { state with label := { state.label with printWidth := dots } }
  | .labelLength dots => .ok { state with label := { state.label with length := dots } }
  | .invert on => .ok { state with label := { state.label with inverted := on } }
  | .defaultFont font =>
    .ok { state with
      settings := { state.settings with lettering := state.settings.changeDefault font } }
  | .defaultOrientation orientation =>
    .ok { state with
      settings :=
        { state.settings with
          orientation := orientation.getD state.settings.orientation } }
  | .barDefaults moduleWidth height =>
    .ok { state with
      settings :=
        { state.settings with
          moduleWidth := moduleWidth.getD state.settings.moduleWidth
          barHeight := height.getD state.settings.barHeight } }
  | .font font =>
    .ok { state with
      field := { state.field with lettering := some (state.settings.letters font) } }
  | .origin x y anchor =>
    .ok { state with
      field := { state.field with origin := some (state.settings.place x y anchor) } }
  | .data text =>
    (state.fieldData text).map fun text =>
      { state with field := { state.field with data := some text } }
  | .reverse => .ok { state with field := { state.field with reverse := true } }
  | .escapes indicator =>
    .ok { state with field := { state.field with indicator := some indicator } }
  | .block block => .ok { state with field := { state.field with block := some block } }
  | .request request =>
    .ok { state with
      field := { state.field with printing := some (state.settings.printing request) } }
  | .endField => .ok state.endField
  | .nothing => .ok state

/-- Carries out the command that a token stands for. -/
def applyToken (state : LabelState) (token : Token) : Except MarkupError LabelState :=
  match Command.ofToken token with
  | .ok command => state.apply command
  | .error error => .error error

/-- The label, once no more commands follow. -/
def finish (state : LabelState) : Label :=
  if state.field.data.isSome || state.field.printing.isSome then state.endField.label
  else state.label

end LabelState

/-- Whether a token opens a label. -/
def Token.opensLabel (token : Token) : Bool :=
  token.lead = .caret && token.code = ['X', 'A']

/-- Whether a token closes a label. -/
def Token.closesLabel (token : Token) : Bool :=
  token.lead = .caret && token.code = ['X', 'Z']

/-- The labels read so far, and the label that is open. -/
structure Reading where
  /-- The finished labels. -/
  finished : Array Label := #[]
  /-- The open label. -/
  current : Option LabelState := none

namespace Reading

/-- Closes the open label, if there is one. -/
def close (reading : Reading) : Reading :=
  match reading.current with
  | some state => ⟨reading.finished.push state.finish, none⟩
  | none => reading

/-- Takes up a token; tokens outside a label are skipped. -/
def step (reading : Reading) (token : Token) : Except MarkupError Reading :=
  if token.opensLabel then .ok { reading.close with current := some {} }
  else if token.closesLabel then .ok reading.close
  else
    match reading.current with
    | some state =>
      (state.applyToken token).map fun state => { reading with current := some state }
    | none => .ok reading

end Reading

/-- The labels of a list of tokens, or the first error. -/
def readTokens (tokens : List Token) : Except MarkupError (List Label) := do
  let reading ← tokens.foldlM Reading.step {}
  return reading.close.finished.toList

/-- The labels of a text, or the first error. -/
def readText (text : List Char) : Except MarkupError (List Label) :=
  readTokens (Token.scan text).toList

/-- The labels of markup in UTF-8, or the first error. -/
def readBytes (markup : List UInt8) : Except MarkupError (List Label) :=
  readText (Text.decode markup)

end LabelPress.Markup
