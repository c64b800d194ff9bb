import LabelPress.Json.Numeral
import LabelPress.Json.StringLiteral

/-!
# Reading of JSON texts

A text holds one value between blanks.  The kind of a value is known from its first byte.  Lists
and objects may stand inside one another up to a limit.
-/

namespace LabelPress.Json

/-- The number of lists and objects that may stand inside one another. -/
def maxNesting : Nat := 127

/-- Reads the letters of a word. -/
def readLetters (bytes : List UInt8) : (letters : List UInt8) → Except Failure (Taken Unit bytes)
  | [] => .ok ⟨(), bytes, Nat.le_refl _⟩
  | letter :: letters =>
    match bytes with
    | [] => .error ⟨.unfinishedValue, []⟩
    | first :: rest =>
      if first = letter then
        match readLetters rest letters with
        | .error failure => .error failure
        | .ok taken => .ok ⟨(), taken.rest, Nat.le_succ_of_le taken.notLonger⟩
      else .error ⟨.wordExpected, rest⟩

/-- Reads a word behind its first letter; it stands for a value. -/
def readWord (value : Value) (letters : String) (first : UInt8) (rest : List UInt8) :
    Except Failure (Found Value (first :: rest)) :=
  match readLetters rest (letters.toList.map byteOf) with
  | .error failure => .error failure
  | .ok taken => .ok ((Taken.mk value taken.rest taken.notLonger).behind first)

/-- What may stand behind an item of a list or an object. -/
structure Enclosure where
  /-- The byte that closes it. -/
  closing : UInt8
  /-- The fault of a text that ends inside. -/
  unfinished : Fault
  /-- The fault of another byte behind an item. -/
  commaOrEndExpected : Fault
  deriving DecidableEq, Repr

/-- What stands in a list. -/
def listEnclosure : Enclosure :=
  ⟨byteOf ']', .unfinishedList, .listCommaOrEndExpected⟩

/-- What stands in an object. -/
def objectEnclosure : Enclosure :=
  ⟨byteOf '\x7d', .unfinishedObject, .objectCommaOrEndExpected⟩

/-- The bytes of the next item behind blanks, or the bytes behind the closing byte. -/
inductive Continuation (bytes : List UInt8) where
  /-- An item stands at the beginning of `rest`. -/
  | item (rest : List UInt8) (notLonger : rest.length ≤ bytes.length)
  /-- The list or object is closed. -/
  | closed (rest : List UInt8) (shorter : rest.length < bytes.length)

/-- Looks for the next item or the end, behind the opening byte or behind an item. -/
def continuation (enclosure : Enclosure) (first : Bool) (bytes : List UInt8) :
    Except Failure (Continuation bytes) :=
  have notLonger := length_skipBlanks_le bytes
  match _found : skipBlanks bytes with
  | [] => .error ⟨enclosure.unfinished, []⟩
  | next :: behind =>
    have shorter : behind.length < bytes.length := by
      rw [_found] at notLonger
      exact notLonger
    if next = enclosure.closing then .ok (.closed behind shorter)
    else if first then .ok (.item (skipBlanks bytes) (length_skipBlanks_le bytes))
    else if next = byteOf ',' then
      match skipBlanks behind with
      | [] => .error ⟨.unfinishedValue, []⟩
      | item :: _ =>
        if item = enclosure.closing then
          .error (.atNext .trailingComma (skipBlanks behind))
        else
          .ok (.item (skipBlanks behind)
            (Nat.le_trans (length_skipBlanks_le behind) (Nat.le_of_lt shorter)))
    else .error (.atNext enclosure.commaOrEndExpected (skipBlanks bytes))

/-- Reads items up to the end; the items so far stand in reverse order. -/
def readItems {α : Type} (enclosure : Enclosure) (read : Reader α) (reversed : List α)
    (bytes : List UInt8) : Except Failure (Found (List α) bytes) :=
  match continuation enclosure reversed.isEmpty bytes with
  | .error failure => .error failure
  | .ok (.closed rest shorter) => .ok ⟨reversed.reverse, rest, shorter⟩
  | .ok (.item rest notLonger) =>
    match read rest with
    | .error failure => .error failure
    | .ok item =>
      match readItems enclosure read (item.value :: reversed) item.rest with
      | .error failure => .error failure
      | .ok found =>
        .ok (found.extend (Nat.le_trans (Nat.le_of_lt item.shorter) notLonger))
termination_by bytes.length
decreasing_by exact Nat.lt_of_lt_of_le item.shorter notLonger

/-- Reads the colon behind the name of a member. -/
def readColon : Reader Unit := fun bytes =>
  have notLonger := length_skipBlanks_le bytes
  match _found : skipBlanks bytes with
  | [] => .error ⟨.unfinishedObject, []⟩
  | next :: rest =>
    if next = byteOf ':' then
      .ok ⟨(), rest, by rw [_found] at notLonger; exact notLonger⟩
    else .error (.atNext .colonExpected (next :: rest))

/-- Reads a member of an object. -/
def readMember (read : Reader Value) : Reader (String × Value) := fun bytes =>
  match bytes with
  | [] => .error ⟨.keyExpected, []⟩
  | first :: behind =>
    if first ≠ quoteMark then .error ⟨.keyExpected, behind⟩
    else
      match readString behind with
      | .error failure => .error failure
      | .ok name =>
        match readColon name.rest with
        | .error failure => .error failure
        | .ok colon =>
          match behindBlanks read colon.rest with
          | .error failure => .error failure
          | .ok value =>
            .ok (((value.map (name.value, ·)).extend (Nat.le_of_lt
              (Nat.lt_trans colon.shorter name.shorter))).behind first)

/-- Reads a list or an object behind its opening byte. -/
def readEnclosed {α : Type} (enclosure : Enclosure) (read : Reader α) (make : List α → Value)
    (first : UInt8) (rest : List UInt8) : Except Failure (Found Value (first :: rest)) :=
  match readItems enclosure read [] rest with
  | .error failure => .error failure
  | .ok found => .ok ((found.map make).behind first)

/-- Reads a number or a string, whose first byte is known, or a word. -/
def readPlain (first : UInt8) (rest : List UInt8) :
    Except Failure (Found Value (first :: rest)) :=
  if first = byteOf 'n' then readWord .null "ull" first rest
  else if first = byteOf 't' then readWord (.boolean true) "rue" first rest
  else if first = byteOf 'f' then readWord (.boolean false) "alse" first rest
  else if first = byteOf '-' then
    match readUnsigned true rest with
    | .error failure => .error failure
    | .ok found => .ok ((found.map Value.number).behind first)
  else if isDigit first then
    match readUnsigned false (first :: rest) with
    | .error failure => .error failure
    | .ok found => .ok (found.map Value.number)
  else if first = quoteMark then
    match readString rest with
    | .error failure => .error failure
    | .ok found => .ok ((found.map Value.string).behind first)
  else .error ⟨.valueExpected, rest⟩

/-- Reads a value that may hold `nesting` more lists and objects inside one another. -/
def readValue (nesting : Nat) : Reader Value := fun bytes =>
  match bytes with
  | [] => .error ⟨.unfinishedValue, []⟩
  | first :: rest =>
    if first = byteOf '[' ∨ first = byteOf '\x7b' then
      match nesting with
      | 0 => .error ⟨.tooDeep, rest⟩
      | nesting + 1 =>
        if first = byteOf '[' then
          readEnclosed listEnclosure (readValue nesting) .array first rest
        else readEnclosed objectEnclosure (readMember (readValue nesting)) .object first rest
    else readPlain first rest
termination_by structural nesting

/-- Reads a whole text. -/
def parse (text : List UInt8) : Except Failure Value :=
  match behindBlanks (readValue maxNesting) text with
  | .error failure => .error failure
  | .ok found =>
    match skipBlanks found.rest with
    | [] => .ok found.value
    | _ :: rest => .error ⟨.trailingCharacters, rest⟩

end LabelPress.Json
