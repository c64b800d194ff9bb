/-!
# Tokens of markup

Markup is a sequence of commands.  A command opens with a caret or a tilde, has a code of two
letters and then parameters up to the next opening character.  The font command `^A` has a code
of one letter, so that the name of the font is the first character of its parameters.  Field data
and comments end at the next caret only and may hold tildes.  Text before the first command is
skipped, and so is a command whose code is cut off.
-/

namespace LabelPress.Markup

/-- The character that opens a command. -/
inductive Lead where
  | caret
  | tilde
  deriving DecidableEq, Repr

namespace Lead

/-- The character itself. -/
def toChar : Lead → Char
  | caret => '^'
  | tilde => '~'

/-- The opening that a character stands for. -/
def ofChar? (character : Char) : Option Lead :=
  if character = '^' then some caret
  else if character = '~' then some tilde
  else none

@[simp]
theorem ofChar?_toChar (lead : Lead) : ofChar? lead.toChar = some lead := by
  cases lead <;> rfl

end Lead

/-- Whether a character opens a command. -/
def opensCommand (character : Char) : Bool :=
  character = '^' || character = '~'

/-- A command with its parameters still in one piece. -/
structure Token where
  /-- The opening character. -/
  lead : Lead
  /-- The code in upper case. -/
  code : List Char
  /-- The parameters without line breaks. -/
  params : List Char
  deriving DecidableEq, Repr

namespace Token

/-- The codes of field data and comments, whose parameters may hold tildes. -/
def dataCodes : List (List Char) :=
  [['F', 'D'], ['F', 'V'], ['F', 'X']]

/-- Whether a character ends the parameters of a command with this code. -/
def endsParams (code : List Char) (character : Char) : Bool :=
  character = '^' || (character = '~' && !dataCodes.contains code)

/-- Whether a character breaks a line. -/
def isLineBreak (character : Char) : Bool :=
  character = '\r' || character = '\n'

/-- The command whose parameters stand at the front of `text`. -/
def ofFront (lead : Lead) (code text : List Char) : Token :=
  ⟨lead, code, (text.takeWhile (!endsParams code ·)).filter (!isLineBreak ·)⟩

/-- What stands behind the parameters at the front of `text`. -/
def afterParams (code text : List Char) : List Char :=
  text.dropWhile (!endsParams code ·)

theorem length_afterParams_le (code text : List Char) :
    (afterParams code text).length ≤ text.length :=
  (List.dropWhile_suffix _).length_le

/-- The code that stands at the front of `text` and what follows it, if the code is complete. -/
def code? (lead : Lead) : List Char → Option (List Char × List Char)
  | [] => none
  | first :: rest =>
    if lead = .caret ∧ first.toUpper = 'A' then some (['A'], rest)
    else
      match rest with
      | [] => none
      | second :: rest =>
        if opensCommand second.toUpper then none
        else some ([first.toUpper, second.toUpper], rest)

theorem length_lt_of_code? {lead : Lead} {text code rest : List Char}
    (found : code? lead text = some (code, rest)) : rest.length < text.length := by
  unfold code? at found
  split at found
  · cases found
  · split at found
    · cases found
      simp
    · split at found
      · cases found
      · split at found
        · cases found
        · cases found
          simp only [List.length_cons]
          omega

/-- The commands of a text, put behind those of `found`. -/
def scanFrom (found : Array Token) : List Char → Array Token
  | [] => found
  | character :: rest =>
    match Lead.ofChar? character with
    | none => scanFrom found rest
    | some lead =>
      match _complete : code? lead rest with
      | none => scanFrom found rest.tail
      | some (code, text) => scanFrom (found.push (ofFront lead code text)) (afterParams code text)
termination_by text => text.length
decreasing_by
  · simp
  · simp only [List.length_cons, List.length_tail]
    omega
  · have := length_lt_of_code? _complete
    have := length_afterParams_le code text
    simp only [List.length_cons]
    omega

/-- The commands of a text. -/
def scan (text : List Char) : Array Token :=
  scanFrom #[] text

end Token

end LabelPress.Markup
