import LabelPress.Text.Shown

/-!
# Quoted text

Text between quotation marks as messages show it: marks and backslashes are escaped, some controls
have names, and other characters that are not shown are written as their numbers.
-/

namespace LabelPress.Text

/-- The digits of a number in base sixteen, without leading zeros. -/
def hexDigits (number : Nat) : List Char :=
  Nat.toDigits 16 number

/-- A character between quotation marks. -/
def escaped (character : Char) : List Char :=
  match character with
  | '\x00' => ['\\', '0']
  | '\t' => ['\\', 't']
  | '\r' => ['\\', 'r']
  | '\n' => ['\\', 'n']
  | '\\' => ['\\', '\\']
  | '"' => ['\\', '"']
  | _ =>
    if isShown character then [character]
    else ['\\', 'u', '\x7b'] ++ hexDigits character.toNat ++ ['\x7d']

/-- Text between quotation marks. -/
def quoted (text : List Char) : List Char :=
  ['"'] ++ text.flatMap escaped ++ ['"']

end LabelPress.Text
