/-!
# Wrapping of lines

Text is wrapped into lines that are as long as fits.  A line may end at a space or behind a
hyphen: the text is taken as pieces, which are its words, each cut behind every hyphen.  A piece
that begins a word is set off by one space from the piece before it in the same line.  A piece
that is wider than a line has a line of its own.
-/

namespace LabelPress.Text

/-- A part of a word that no line break divides. -/
structure Piece where
  /-- Whether it is the first part of its word. -/
  startsWord : Bool
  /-- Its characters. -/
  text : List Char
  deriving DecidableEq, Repr

/--
The parts of a text, each ending behind a hyphen or at the end; `reversed` is the beginning of the
first part, the last character first.
-/
def hyphenPartsFrom (reversed : List Char) : List Char → List (List Char)
  | [] => if reversed.isEmpty then [] else [reversed.reverse]
  | character :: rest =>
    if character = '-' then (character :: reversed).reverse :: hyphenPartsFrom [] rest
    else hyphenPartsFrom (character :: reversed) rest

/-- The pieces of a word. -/
def wordPieces (word : List Char) : List Piece :=
  match hyphenPartsFrom [] word with
  | [] => []
  | first :: rest => ⟨true, first⟩ :: rest.map (⟨false, ·⟩)

/-- The pieces of a text, whose words stand between spaces. -/
def pieces (text : List Char) : List Piece :=
  ((text.splitOn ' ').filter fun word => !word.isEmpty).flatMap wordPieces

/-- A line with one more piece. -/
def extendLine (line : List Char) (piece : Piece) : List Char :=
  if piece.startsWord && !line.isEmpty then line ++ ' ' :: piece.text else line ++ piece.text

/-- The lines that `line` and the pieces behind it fill. -/
def fillLines (measure : List Char → Nat) (width : Nat) (line : List Char) :
    List Piece → List (List Char)
  | [] => [line]
  | piece :: pieces =>
    if line.isEmpty || measure (extendLine line piece) ≤ width then
      fillLines measure width (extendLine line piece) pieces
    else line :: fillLines measure width piece.text pieces

/-- The lines of a text; with width zero it stays in one line. -/
def wrap (measure : List Char → Nat) (width : Nat) (text : List Char) : List (List Char) :=
  if width = 0 then [text] else fillLines measure width [] (pieces text)

/--
The parts of a text between the marks `\&`; `reversed` is the beginning of the first part, the
last character first.
-/
def paragraphsFrom (reversed : List Char) : List Char → List (List Char)
  | [] => [reversed.reverse]
  | '\\' :: '&' :: rest => reversed.reverse :: paragraphsFrom [] rest
  | character :: rest => paragraphsFrom (character :: reversed) rest

/-- The parts of a text between the marks `\&`. -/
def paragraphs (text : List Char) : List (List Char) :=
  paragraphsFrom [] text

/-- The lines of a block: its paragraphs are wrapped, and `maxLines` lines are kept. -/
def blockLines (measure : List Char → Nat) (width maxLines : Nat) (text : List Char) :
    List (List Char) :=
  ((paragraphs text).flatMap (wrap measure width)).take (max maxLines 1)

end LabelPress.Text
