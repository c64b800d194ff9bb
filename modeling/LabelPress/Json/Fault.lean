/-!
# Faults in JSON texts

A text that is no JSON is refused with the reason and the place at which reading stopped: the line,
and the number of bytes read in this line.
-/

namespace LabelPress.Json

/-- A reason for which a text is no JSON. -/
inductive Fault where
  | unfinishedList
  | unfinishedObject
  | unfinishedString
  | unfinishedValue
  | colonExpected
  | listCommaOrEndExpected
  | objectCommaOrEndExpected
  | wordExpected
  | valueExpected
  | badEscape
  | badNumber
  | numberOutOfRange
  | controlCharacter
  | keyExpected
  | loneSurrogate
  | trailingComma
  | trailingCharacters
  | unfinishedSurrogate
  | tooDeep
  deriving DecidableEq, Repr

/-- The text of a fault. -/
def Fault.message : Fault → String
  | unfinishedList => "EOF while parsing a list"
  | unfinishedObject => "EOF while parsing an object"
  | unfinishedString => "EOF while parsing a string"
  | unfinishedValue => "EOF while parsing a value"
  | colonExpected => "expected \x60:\x60"
  | listCommaOrEndExpected => "expected \x60,\x60 or \x60]\x60"
  | objectCommaOrEndExpected => "expected \x60,\x60 or \x60\x7d\x60"
  | wordExpected => "expected ident"
  | valueExpected => "expected value"
  | badEscape => "invalid escape"
  | badNumber => "invalid number"
  | numberOutOfRange => "number out of range"
  | controlCharacter => "control character (\\u0000-\\u001F) found while parsing a string"
  | keyExpected => "key must be a string"
  | loneSurrogate => "lone leading surrogate in hex escape"
  | trailingComma => "trailing comma"
  | trailingCharacters => "trailing characters"
  | unfinishedSurrogate => "unexpected end of hex escape"
  | tooDeep => "recursion limit exceeded"

/-- A place in a text. -/
structure Place where
  /-- The number of the line. -/
  line : Nat
  /-- The number of bytes of the line up to the place. -/
  column : Nat
  deriving DecidableEq, Repr

/-- The byte that ends a line. -/
def lineBreak : UInt8 := 10

/-- The place behind bytes. -/
def Place.behind (bytes : List UInt8) : Place where
  line := 1 + bytes.count lineBreak
  column := (bytes.reverse.takeWhile (· != lineBreak)).length

/-- Reading stopped with a fault. -/
structure Failure where
  /-- The reason. -/
  fault : Fault
  /-- The bytes behind the place that is reported. -/
  rest : List UInt8
  deriving DecidableEq, Repr

namespace Failure

/-- A fault at the first of some bytes, which counts as read. -/
def atNext (fault : Fault) (bytes : List UInt8) : Failure :=
  ⟨fault, bytes.tail⟩

/-- The place of a failure in a text. -/
def place (failure : Failure) (text : List UInt8) : Place :=
  .behind (text.take (text.length - failure.rest.length))

end Failure

end LabelPress.Json
