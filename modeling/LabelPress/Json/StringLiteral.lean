import LabelPress.Json.Reader
import LabelPress.Text.Integer
import LabelPress.Text.Utf8

/-!
# String literals

A string literal stands between quotation marks.  A backslash begins an escape: a mark, the letter
of a control character, or `u` and four hexadecimal digits; a character outside the basic plane
takes two such groups, a leading and a trailing surrogate.
-/

namespace LabelPress.Json

/-- The quotation mark. -/
def quoteMark : UInt8 := byteOf '"'

/-- The backslash. -/
def backslash : UInt8 := byteOf '\\'

/-- The character for a single letter behind a backslash. -/
def shortEscape? (letter : UInt8) : Option Char :=
  if letter = quoteMark then some '"'
  else if letter = backslash then some '\\'
  else if letter = byteOf '/' then some '/'
  else if letter = byteOf 'b' then some '\x08'
  else if letter = byteOf 'f' then some '\x0c'
  else if letter = byteOf 'n' then some '\n'
  else if letter = byteOf 'r' then some '\r'
  else if letter = byteOf 't' then some '\t'
  else none

/-- The number of four hexadecimal digits. -/
def fourDigits? (first second third fourth : UInt8) : Option Nat :=
  [first, second, third, fourth].foldlM (fun number byte =>
    (Text.hexDigit? (Char.ofNat byte.toNat)).map (16 * number + ·)) 0

/-- Reads four hexadecimal digits. -/
def readHexGroup : Reader Nat := fun bytes =>
  match bytes with
  | first :: second :: third :: fourth :: rest =>
    match fourDigits? first second third fourth with
    | some number =>
      .ok ((((Found.first number fourth rest).behind third).behind second).behind first)
    | none => .error ⟨.badEscape, rest⟩
  | _ => .error ⟨.unfinishedString, []⟩

/-- Whether a number is that of a leading surrogate. -/
def isLeading (number : Nat) : Bool :=
  0xD800 ≤ number ∧ number ≤ 0xDBFF

/-- Whether a number is that of a trailing surrogate. -/
def isTrailing (number : Nat) : Bool :=
  0xDC00 ≤ number ∧ number ≤ 0xDFFF

/-- The character of two surrogates. -/
def joined (leading trailing : Nat) : Char :=
  Char.ofNat (0x10000 + 0x400 * (leading - 0xD800) + (trailing - 0xDC00))

/-- Reads the escape of the trailing surrogate that belongs to a leading one. -/
def readTrailing (leading : Nat) : Reader Char := fun bytes =>
  match bytes with
  | [] => .error ⟨.unfinishedString, []⟩
  | first :: behind =>
    if first ≠ backslash then .error ⟨.unfinishedSurrogate, behind⟩
    else
      match behind with
      | [] => .error ⟨.unfinishedString, []⟩
      | second :: rest =>
        if second ≠ byteOf 'u' then .error ⟨.unfinishedSurrogate, rest⟩
        else
          match readHexGroup rest with
          | .error failure => .error failure
          | .ok found =>
            if isTrailing found.value then
              .ok (((found.map (joined leading)).behind second).behind first)
            else .error ⟨.loneSurrogate, found.rest⟩

/-- Reads what stands behind a backslash and `u`. -/
def readUnicodeEscape : Reader Char := fun bytes =>
  match readHexGroup bytes with
  | .error failure => .error failure
  | .ok found =>
    if isTrailing found.value then .error ⟨.loneSurrogate, found.rest⟩
    else if isLeading found.value then
      match readTrailing found.value found.rest with
      | .error failure => .error failure
      | .ok trailing => .ok (trailing.extend (Nat.le_of_lt found.shorter))
    else .ok (found.map Char.ofNat)

/-- Reads what stands behind a backslash. -/
def readEscape : Reader Char := fun bytes =>
  match bytes with
  | [] => .error ⟨.unfinishedString, []⟩
  | letter :: rest =>
    if letter = byteOf 'u' then
      match readUnicodeEscape rest with
      | .error failure => .error failure
      | .ok found => .ok (found.behind letter)
    else
      match shortEscape? letter with
      | some character => .ok (.first character letter rest)
      | none => .error ⟨.badEscape, rest⟩

/-- Reads up to the closing mark; the bytes of the string so far stand in reverse order. -/
def readStringFrom (reversed : List UInt8) (bytes : List UInt8) :
    Except Failure (Found (List UInt8) bytes) :=
  match bytes with
  | [] => .error ⟨.unfinishedString, []⟩
  | first :: rest =>
    if first = quoteMark then .ok (.first reversed.reverse first rest)
    else if first = backslash then
      match readEscape rest with
      | .error failure => .error failure
      | .ok escape =>
        let encoded := Text.encode [escape.value]
        match readStringFrom (encoded.reverseAux reversed) escape.rest with
        | .error failure => .error failure
        | .ok found => .ok (found.extend (Nat.le_succ_of_le (Nat.le_of_lt escape.shorter)))
    else if first < 0x20 then .error ⟨.controlCharacter, rest⟩
    else
      match readStringFrom (first :: reversed) rest with
      | .error failure => .error failure
      | .ok found => .ok (found.behind first)
termination_by bytes.length
decreasing_by
  all_goals simp only [List.length_cons]
  · have := escape.shorter
    omega
  · omega

/-- Reads a string behind its opening mark. -/
def readString : Reader String := fun bytes =>
  match readStringFrom [] bytes with
  | .error failure => .error failure
  | .ok found => .ok (found.map fun bytes => String.ofList (Text.decode bytes))

end LabelPress.Json
