import LabelPress.Markup.Error
import LabelPress.Text.Integer
import LabelPress.Text.Utf8

/-!
# Hexadecimal escapes in field data

An indicator character and two hexadecimal digits stand for a byte; all other characters stand for
themselves.  The bytes are read as UTF-8 in the end, so that a character of several bytes may be
written as several escapes.
-/

namespace LabelPress.Markup.HexEscape

open LabelPress.Text

/-- The byte that two characters behind an indicator stand for. -/
def byte? (high low : Char) : Option UInt8 :=
  match hexDigit? high, hexDigit? low with
  | some high, some low => some (UInt8.ofNat (16 * high + low))
  | _, _ => none

/--
The bytes of escaped data, put behind those of `found`.  The data begin at the byte `position` of
the field; an indicator that is not followed by two digits is an error at its own position.
-/
def bytesFrom (indicator : Char) (found : Array UInt8) (position : Nat) :
    List Char → Except MarkupError (Array UInt8)
  | [] => .ok found
  | character :: rest =>
    if character = indicator then
      match rest with
      | high :: low :: rest =>
        match byte? high low with
        | some byte =>
          bytesFrom indicator (found.push byte)
            (position + character.utf8Size + high.utf8Size + low.utf8Size) rest
        | none => .error (.hexEscape position)
      | _ => .error (.hexEscape position)
    else
      bytesFrom indicator (found ++ String.utf8EncodeChar character)
        (position + character.utf8Size) rest

/-- The bytes of escaped data. -/
def bytes (indicator : Char) (data : List Char) : Except MarkupError (List UInt8) :=
  (bytesFrom indicator #[] 0 data).map Array.toList

/-- The text that escaped data stand for. -/
def decode (indicator : Char) (data : List Char) : Except MarkupError (List Char) :=
  (bytes indicator data).map Text.decode

end LabelPress.Markup.HexEscape
