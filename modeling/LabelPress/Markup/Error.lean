/-!
# Errors of markup

What may be wrong with a command, and how it is reported.
-/

namespace LabelPress.Markup

/-- A reason for which a command cannot be read. -/
inductive MarkupError where
  /-- An escape in field data, at this byte, is not followed by two hexadecimal digits. -/
  | hexEscape (position : Nat)
  /-- The data of a bitmap are malformed. -/
  | graphic (reason : String)
  /-- A numeric parameter is not a number or is out of range. -/
  | parameter (command value : String)
  deriving DecidableEq, Repr

/-- The text of an error. -/
def MarkupError.message : MarkupError → String
  | hexEscape position =>
    "invalid hex escape at position " ++ toString position ++ " of field data"
  | graphic reason => "graphic field: " ++ reason
  | parameter command value => "invalid parameter '" ++ value ++ "' for ^" ++ command

end LabelPress.Markup
