import LabelPress.Json.Numeral
import LabelPress.Json.StringLiteral
import Mathlib.Algebra.Group.Nat.Defs

/-!
# The grammar of JSON texts

A text is a row of lexemes with blanks before, between and behind them (`Spaced`).  The grammar
says which lexemes a value is written with (`Written`): a word, a number or a string is one
lexeme, and the items of a list or an object stand between commas.  It does not look at how texts
are read.
-/

namespace LabelPress.Json

/-! ## Lexemes and blanks -/

/-- A bracket, a brace, a comma, a colon, a word, a number, or a string with its marks. -/
abbrev Lexeme :=
  List Char

/-- Whether a character may stand between lexemes. -/
def isBlankCharacter (character : Char) : Bool :=
  character = ' ' ∨ character = '\n' ∨ character = '\t' ∨ character = '\r'

/-- A text begins with lexemes, each behind blanks, and `behind` stands behind the last one. -/
inductive Leads : (lexemes : List Lexeme) → (text behind : List Char) → Prop where
  | nil (text : List Char) : Leads [] text text
  | cons {blanks lexeme text behind : List Char} {lexemes : List Lexeme}
      (blank : ∀ character ∈ blanks, isBlankCharacter character = true)
      (later : Leads lexemes text behind) :
      Leads (lexeme :: lexemes) (blanks ++ (lexeme ++ text)) behind

/-- A text that consists of lexemes and of blanks before, between and behind them. -/
def Spaced (lexemes : List Lexeme) (text : List Char) : Prop :=
  ∃ blanks, (∀ character ∈ blanks, isBlankCharacter character = true) ∧
    Leads lexemes text blanks

/-! ## Strings -/

/-- The letters that may stand behind a backslash, each with the character it stands for. -/
def shortEscapes : List (Char × Char) :=
  [('"', '"'), ('\\', '\\'), ('/', '/'), ('b', '\x08'), ('f', '\x0c'), ('n', '\n'), ('r', '\r'),
    ('t', '\t')]

/-- Four hexadecimal digits of either case, with their number. -/
structure HexGroup (number : Nat) (digits : List Char) : Prop where
  four : digits.length = 4
  value : digits.foldlM (fun number digit => (Text.hexDigit? digit).map (16 * number + ·)) 0 =
    some number

/-- How a character may be written behind a backslash. -/
inductive EscapeText : Char → List Char → Prop where
  /-- A letter for a character. -/
  | short {letter character : Char} (known : (letter, character) ∈ shortEscapes) :
      EscapeText character [letter]
  /-- The code point of a character. -/
  | code {character : Char} {digits : List Char} (group : HexGroup character.toNat digits) :
      EscapeText character ('u' :: digits)
  /-- A leading and a trailing surrogate for a character outside the basic plane. -/
  | pair {character : Char} {high low : Nat} {leading trailing : List Char}
      (leadingGroup : HexGroup (0xD800 + high) leading) (highBits : high < 0x400)
      (trailingGroup : HexGroup (0xDC00 + low) trailing) (lowBits : low < 0x400)
      (code : character.toNat = 0x10000 + 0x400 * high + low) :
      EscapeText character ('u' :: (leading ++ '\\' :: 'u' :: trailing))

/-- How a character may be written in a string. -/
inductive CharacterText : Char → List Char → Prop where
  | plain {character : Char} (notMark : character ≠ '"') (notBackslash : character ≠ '\\')
      (notControl : ' ' ≤ character) :
      CharacterText character [character]
  | escape {character : Char} {written : List Char} (escaped : EscapeText character written) :
      CharacterText character ('\\' :: written)

/-- How the characters of a string may be written between its marks. -/
inductive LiteralText : (characters written : List Char) → Prop where
  | nil : LiteralText [] []
  | cons {character : Char} {characters written more : List Char}
      (first : CharacterText character written) (later : LiteralText characters more) :
      LiteralText (character :: characters) (written ++ more)

/-- A string between its marks. -/
inductive StringText : String → Lexeme → Prop where
  | marks {text : String} {written : List Char} (literal : LiteralText text.toList written) :
      StringText text ('"' :: (written ++ ['"']))

/-! ## Numbers -/

/-- One digit or more. -/
structure DigitsText (digits : List Nat) (text : List Char) : Prop where
  nonempty : digits ≠ []
  small : ∀ digit ∈ digits, digit < 10
  written : text = digits.map Nat.digitChar

/-- The digits before the point; a leading zero stands alone. -/
structure WholeText (digits : List Nat) (text : List Char) : Prop extends
    DigitsText digits text where
  alone : digits.head? = some 0 → digits = [0]

/-- A point and digits, or nothing. -/
inductive FractionText : List Nat → List Char → Prop where
  | none : FractionText [] []
  | some {digits : List Nat} {text : List Char} (written : DigitsText digits text) :
      FractionText digits ('.' :: text)

/-- The sign of an exponent; a plus sign may be left out. -/
inductive ExponentSign : (negative : Bool) → List Char → Prop where
  | none : ExponentSign false []
  | plus : ExponentSign false ['+']
  | minus : ExponentSign true ['-']

/-- A letter, a sign and digits, or nothing. -/
inductive ExponentText : Option ExponentPart → List Char → Prop where
  | none : ExponentText none []
  | some {letter : Char} {sign text : List Char} {negative : Bool} {digits : List Nat}
      {source : List UInt8} (isLetter : letter = 'e' ∨ letter = 'E')
      (signed : ExponentSign negative sign) (written : DigitsText digits text) :
      ExponentText (some ⟨negative, digits, source⟩) (letter :: (sign ++ text))

/-- A numeral behind its sign. -/
inductive UnsignedText : Numeral → List Char → Prop where
  | parts {negative : Bool} {whole fraction : List Nat} {exponent : Option ExponentPart}
      {wholeText fractionText exponentText : List Char}
      (wholeWritten : WholeText whole wholeText)
      (fractionWritten : FractionText fraction fractionText)
      (exponentWritten : ExponentText exponent exponentText) :
      UnsignedText ⟨negative, whole, fraction, exponent⟩
        (wholeText ++ (fractionText ++ exponentText))

/-- The sign of a number. -/
def signText (negative : Bool) : List Char :=
  if negative then ['-'] else []

/-- A whole number of 64 bits is written in decimal; any other number is the finite one that its
numeral stands for. -/
inductive NumberText : Number → Lexeme → Prop where
  | natural {value : Nat} (fits : value < 2 ^ 64) :
      NumberText (.natural value) (Nat.toDigits 10 value)
  | negative {value : Nat} (positive : 1 ≤ value) (fits : value ≤ 2 ^ 63) :
      NumberText (.negative (-(value : Int))) ('-' :: Nat.toDigits 10 value)
  | float {numeral : Numeral} {text : List Char} {value : Float}
      (written : UnsignedText numeral text) (decoded : numeral.number [] = .ok (.float value))
      (finite : value.isFinite = true) :
      NumberText (.float value) (signText numeral.negative ++ text)

/-! ## Values -/

/-- A value of one lexeme. -/
inductive PlainText : Value → List Lexeme → Prop where
  | null : PlainText .null ["null".toList]
  | true : PlainText (.boolean true) ["true".toList]
  | false : PlainText (.boolean false) ["false".toList]
  | number {number : Number} {lexeme : Lexeme} (written : NumberText number lexeme) :
      PlainText (.number number) [lexeme]
  | string {text : String} {lexeme : Lexeme} (written : StringText text lexeme) :
      PlainText (.string text) [lexeme]

section Items

variable {α : Type} (item : α → List Lexeme → Prop)

/-- Items, each behind a comma. -/
inductive Further : List α → List Lexeme → Prop where
  | nil : Further [] []
  | cons {first : α} {items : List α} {lexemes more : List Lexeme} (written : item first lexemes)
      (later : Further items more) :
      Further (first :: items) ([','] :: (lexemes ++ more))

/-- Items with a comma between each two. -/
inductive Separated : List α → List Lexeme → Prop where
  | nil : Separated [] []
  | cons {first : α} {items : List α} {lexemes more : List Lexeme} (written : item first lexemes)
      (later : Further item items more) :
      Separated (first :: items) (lexemes ++ more)

end Items

section Layers

variable (inner : Value → List Lexeme → Prop)

/-- The name of a member, a colon and its value. -/
inductive MemberText : String × Value → List Lexeme → Prop where
  | colon {name : String} {value : Value} {lexeme : Lexeme} {lexemes : List Lexeme}
      (nameWritten : StringText name lexeme) (valueWritten : inner value lexemes) :
      MemberText (name, value) (lexeme :: [':'] :: lexemes)

/-- A list or an object of values that are written as `inner` says. -/
inductive EnclosedText : Value → List Lexeme → Prop where
  | array {items : List Value} {lexemes : List Lexeme} (written : Separated inner items lexemes) :
      EnclosedText (.array items) (['['] :: (lexemes ++ [[']']]))
  | object {members : List (String × Value)} {lexemes : List Lexeme}
      (written : Separated (MemberText inner) members lexemes) :
      EnclosedText (.object members) (['\x7b'] :: (lexemes ++ [['\x7d']]))

end Layers

/-- The lexemes of a value with at most `nesting` lists and objects inside one another. -/
def Written : (nesting : Nat) → Value → List Lexeme → Prop
  | 0, value, lexemes => PlainText value lexemes
  | nesting + 1, value, lexemes =>
    PlainText value lexemes ∨ EnclosedText (Written nesting) value lexemes

end LabelPress.Json
