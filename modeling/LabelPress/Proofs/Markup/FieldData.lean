import LabelPress.Markup.Reader
import LabelPress.Proofs.Markup.HexEscape
import LabelPress.Proofs.Markup.Scanning

/-!
# Any text as field data

Carets and line breaks do not survive in field data, and the indicator of escapes does not stand
for itself there.  An escaping of a text (`Escaping`) writes these characters as escapes, one for
each byte, and each of the others as itself or as escapes too.

Three layers read it back.  Scanning takes an escaping whole, because it holds no caret and no line
break (`Escaping.kept`, `Token.reads_command`).  The commands between the ends of a label are
carried out in order on one label (`readTokens_label`), so that the escapes announced by `^FH` are
replaced in the data that follow.  The bytes of the escapes and of the text between them are those
of the text itself (`Escaping.spells`).
-/

namespace LabelPress.Markup

open LabelPress.Text

/-! ## Escapings of a text -/

/-- Whether field data keep a character: carets end them and line breaks are dropped. -/
def keptInData (character : Char) : Bool :=
  !(character = '^' || Token.isLineBreak character)

/--
A text is written character by character, each as itself, where field data keep it and it is not
the indicator, or as the escapes of its bytes.
-/
inductive Escaping (indicator : Char) : List Char → List Char → Prop where
  | nil : Escaping indicator [] []
  | verbatim {character : Char} {text escaped : List Char}
      (kept : keptInData character = true)
      (notIndicator : character ≠ indicator)
      (later : Escaping indicator text escaped) :
      Escaping indicator (character :: text) (character :: escaped)
  | escape {character : Char} {text groups escaped : List Char}
      (written : HexEscape.HexGroups indicator (String.utf8EncodeChar character) groups)
      (later : Escaping indicator text escaped) :
      Escaping indicator (character :: text) (groups ++ escaped)

/-- Every text can be escaped, whatever the indicator is. -/
theorem exists_escaping (indicator : Char) (text : List Char) :
    ∃ escaped, Escaping indicator text escaped := by
  induction text with
  | nil =>
      exact ⟨[], .nil⟩
  | cons character text ih =>
      rcases ih with ⟨escaped, later⟩
      obtain ⟨groups, written⟩ :=
        HexEscape.exists_hexGroups indicator (String.utf8EncodeChar character)
      exact ⟨groups ++ escaped, .escape written later⟩

theorem hexDigit?_of_not_kept {character : Char} (lost : keptInData character = false) :
    hexDigit? character = none := by
  simp only [keptInData, Token.isLineBreak, Bool.not_eq_false', Bool.or_eq_true,
    decide_eq_true_eq] at lost
  rcases lost with rfl | rfl | rfl <;> rfl

theorem keptInData_of_hexDigit? {character : Char} {value : Nat}
    (digit : hexDigit? character = some value) :
    keptInData character = true := by
  rw [← Bool.not_eq_false]
  intro lost
  rw [hexDigit?_of_not_kept lost] at digit
  cases digit

/-- A character that neither is blank nor opens a command is kept. -/
theorem keptInData_of_plain {character : Char} (notBlank : isBlank character = false)
    (plain : opensCommand character = false) :
    keptInData character = true := by
  rw [← Bool.not_eq_false]
  intro lost
  simp only [keptInData, Token.isLineBreak, Bool.not_eq_false', Bool.or_eq_true,
    decide_eq_true_eq] at lost
  rcases lost with rfl | rfl | rfl
  · cases plain
  · cases notBlank
  · cases notBlank

theorem isLineBreak_of_kept {character : Char} (kept : keptInData character = true) :
    Token.isLineBreak character = false := by
  simp only [keptInData, Bool.not_eq_true', Bool.or_eq_false_iff] at kept
  exact kept.2

/-- Field data end at carets only. -/
theorem endsParams_of_kept {character : Char} (kept : keptInData character = true) :
    Token.endsParams ['F', 'D'] character = false := by
  simp only [keptInData, Bool.not_eq_true', Bool.or_eq_false_iff] at kept
  rw [Token.endsParams, kept.1]
  exact Bool.and_false _

theorem endsParams_of_plain (code : List Char) {character : Char}
    (plain : opensCommand character = false) :
    Token.endsParams code character = false := by
  simp only [opensCommand, Bool.or_eq_false_iff] at plain
  rw [Token.endsParams, plain.1, plain.2]
  rfl

namespace Escaping

variable {indicator : Char} {text escaped : List Char}

/-- An escaping spells the bytes of the text. -/
theorem spells (escaping : Escaping indicator text escaped) :
    HexEscape.Spells indicator escaped (encode text) := by
  induction escaping with
  | nil =>
      exact .nil
  | verbatim kept notIndicator later ih =>
      rw [encode_cons]
      exact .plain notIndicator ih
  | escape written later ih =>
      rw [encode_cons]
      exact written.spells.append ih

/-- Field data keep every character of an escaping. -/
theorem kept (escaping : Escaping indicator text escaped)
    (indicatorKept : keptInData indicator = true) :
    ∀ character ∈ escaped, keptInData character = true := by
  induction escaping with
  | nil =>
      intro character member
      cases member
  | verbatim characterKept notIndicator later ih =>
      intro character member
      rcases List.mem_cons.mp member with rfl | member
      · exact characterKept
      · exact ih character member
  | escape written later ih =>
      intro character member
      rcases List.mem_append.mp member with member | member
      · rcases written.eq_or_hexDigit member with rfl | ⟨value, digit⟩
        · exact indicatorKept
        · exact keptInData_of_hexDigit? digit
      · exact ih character member

end Escaping

/-! ## Commands in front of a caret -/

/-- Parameters that hold nothing that ends them and no line break are taken whole. -/
theorem Token.reads_command {rest code params : List Char}
    (complete : code? .caret rest = some (code, params))
    (inside : ∀ character ∈ params, endsParams code character = false)
    (unbroken : ∀ character ∈ params, isLineBreak character = false) :
    Reads ('^' :: rest) [⟨.caret, code, params⟩] [] := by
  have lines : params.filter (!isLineBreak ·) = params := by
    rw [List.filter_eq_self]
    intro character member
    rw [unbroken character member]
    rfl
  rw [← List.append_nil params] at complete
  have reads := Reads.front complete inside (fun _ _ nothing => by cases nothing) .here
  rw [lines] at reads
  exact reads

/-- The characters that open a command or break a line. -/
def Token.dividers : List Char :=
  ['^', '~', '\r', '\n']

/-- A text without dividers neither ends nor breaks as the parameters of a command. -/
theorem Token.undivided
    {params : List Char}
    (whole : ∀ divider ∈ dividers, divider ∉ params) :
    (∀ code, ∀ character ∈ params, endsParams code character = false) ∧
      ∀ character ∈ params, isLineBreak character = false := by
  constructor
  · intro code character member
    apply endsParams_of_plain
    rw [← Bool.not_eq_true]
    intro opens
    obtain ⟨_ | _, rfl⟩ := opensCommand_iff.mp opens
    · exact whole '^' (by decide) member
    · exact whole '~' (by decide) member
  · intro character member
    rw [isLineBreak, Bool.or_eq_false_iff, decide_eq_false_iff_not, decide_eq_false_iff_not]
    constructor
    · rintro rfl
      exact whole '\r' (by decide) member
    · rintro rfl
      exact whole '\n' (by decide) member

/-- Parameters without dividers are taken whole. -/
theorem Token.reads_undivided
    {rest code params : List Char}
    (complete : code? .caret rest = some (code, params))
    (whole : ∀ divider ∈ dividers, divider ∉ params) :
    Reads ('^' :: rest) [⟨.caret, code, params⟩] [] :=
  reads_command complete ((undivided whole).1 code) (undivided whole).2

/-! ## Commands between the ends of a label -/

section Runs

variable {State Item Fault : Type} {step : State → Item → Except Fault State}
variable {before after : State}

theorem foldlM_cons_of_ok {item : Item} (items : List Item)
    (first : step before item = .ok after) :
    (item :: items).foldlM step before = items.foldlM step after := by
  rw [List.foldlM_cons, first]
  rfl

theorem foldlM_append_of_ok {front : List Item} (items : List Item)
    (first : front.foldlM step before = .ok after) :
    (front ++ items).foldlM step before = items.foldlM step after := by
  rw [List.foldlM_append, first]
  rfl

end Runs

theorem Reading.step_of_open {reading : Reading} {state : LabelState} {token : Token}
    (current : reading.current = some state) (notOpening : token.opensLabel = false)
    (notClosing : token.closesLabel = false) :
    reading.step token =
      (state.applyToken token).map fun state => { reading with current := some state } := by
  rw [step, notOpening, notClosing, current]
  rfl

/-- Tokens that neither open nor close a label are carried out one after another. -/
theorem Reading.foldlM_step {tokens : List Token} {reading : Reading} {state : LabelState}
    (current : reading.current = some state)
    (inside : ∀ token ∈ tokens, token.opensLabel = false ∧ token.closesLabel = false) :
    tokens.foldlM Reading.step reading =
      (tokens.foldlM LabelState.applyToken state).map
        fun state => { reading with current := some state } := by
  induction tokens generalizing reading state with
  | nil =>
      cases reading
      cases current
      rfl
  | cons token tokens ih =>
      have ends := inside token List.mem_cons_self
      rw [List.foldlM_cons, List.foldlM_cons, step_of_open current ends.1 ends.2]
      cases state.applyToken token with
      | error fault =>
          rfl
      | ok state =>
          exact ih rfl fun token member => inside token (List.mem_cons_of_mem _ member)

/-- The commands between the ends of a label make one label. -/
theorem readTokens_label {tokens : List Token} {params : List Char} {state : LabelState}
    (inside : ∀ token ∈ tokens, token.opensLabel = false ∧ token.closesLabel = false)
    (run : tokens.foldlM LabelState.applyToken {} = .ok state) :
    readTokens (⟨.caret, ['X', 'A'], params⟩ :: (tokens ++ [⟨.caret, ['X', 'Z'], []⟩])) =
      .ok [state.finish] := by
  have opened : Reading.step {} ⟨.caret, ['X', 'A'], params⟩ = .ok ⟨#[], some {}⟩ := rfl
  have closed : Reading.step ⟨#[], some state⟩ ⟨.caret, ['X', 'Z'], []⟩ =
      .ok ⟨#[state.finish], none⟩ := rfl
  have between : tokens.foldlM Reading.step ⟨#[], some {}⟩ = .ok ⟨#[], some state⟩ := by
    rw [Reading.foldlM_step rfl inside, run]
    rfl
  have all : (⟨.caret, ['X', 'A'], params⟩ :: (tokens ++ [⟨.caret, ['X', 'Z'], []⟩])).foldlM
      Reading.step {} = .ok ⟨#[state.finish], none⟩ := by
    rw [foldlM_cons_of_ok _ opened, foldlM_append_of_ok _ between, foldlM_cons_of_ok _ closed]
    rfl
  rw [readTokens, all]
  rfl

/-! ## A field of escaped text -/

section Field

variable {indicator : Char} {text escaped : List Char}

theorem indicator_of_not_blank (notBlank : isBlank indicator = false) :
    Command.indicator [indicator] = indicator := by
  simp [Command.indicator, trim, trimStart, trimEnd, notBlank]

/-- The commands of a field are taken one by one, its data whole. -/
theorem scan_field (notBlank : isBlank indicator = false)
    (plain : opensCommand indicator = false) (escaping : Escaping indicator text escaped) :
    (Token.scan ("^XA^FH".toList ++ indicator ::
      ("^FD".toList ++ escaped ++ "^FS^XZ".toList))).toList =
        [⟨.caret, ['X', 'A'], []⟩, ⟨.caret, ['F', 'H'], [indicator]⟩,
          ⟨.caret, ['F', 'D'], escaped⟩, ⟨.caret, ['F', 'S'], []⟩,
          ⟨.caret, ['X', 'Z'], []⟩] := by
  have indicatorKept := keptInData_of_plain notBlank plain
  have opening : Token.Reads "^XA".toList [⟨.caret, ['X', 'A'], []⟩] [] :=
    Token.reads_command rfl (by simp) (by simp)
  have announcement : Token.Reads ['^', 'F', 'H', indicator]
      [⟨.caret, ['F', 'H'], [indicator]⟩] [] := by
    refine Token.reads_command rfl ?_ ?_
    · intro character member
      rw [List.mem_singleton.mp member]
      exact endsParams_of_plain ['F', 'H'] plain
    · intro character member
      rw [List.mem_singleton.mp member]
      exact isLineBreak_of_kept indicatorKept
  have filling : Token.Reads ('^' :: 'F' :: 'D' :: escaped)
      [⟨.caret, ['F', 'D'], escaped⟩] [] := by
    refine Token.reads_command rfl ?_ ?_
    · intro character member
      exact endsParams_of_kept (escaping.kept indicatorKept character member)
    · intro character member
      exact isLineBreak_of_kept (escaping.kept indicatorKept character member)
  have ending : Token.Reads "^FS".toList [⟨.caret, ['F', 'S'], []⟩] [] :=
    Token.reads_command rfl (by simp) (by simp)
  have closing : Token.Reads "^XZ".toList [⟨.caret, ['X', 'Z'], []⟩] [] :=
    Token.reads_command rfl (by simp) (by simp)
  -- Every command but the last stands in front of a caret, so they are read one by one.
  have all := (opening.append_caret _).trans <| (announcement.append_caret _).trans <|
    (filling.append_caret _).trans <| (ending.append_caret _).trans closing
  have tokens := all.scan_eq
  rw [Token.scan_nil] at tokens
  exact tokens

/-- The escapes announced by a field are replaced in its data, and its end makes it an element. -/
theorem run_field (notBlank : isBlank indicator = false)
    (decoded : HexEscape.decode indicator escaped = .ok text) :
    [⟨.caret, ['F', 'H'], [indicator]⟩, ⟨.caret, ['F', 'D'], escaped⟩,
        ⟨.caret, ['F', 'S'], []⟩].foldlM LabelState.applyToken {} =
      .ok { label := { elements :=
        #[⟨⟨0, 0, .topLeft⟩, false, .text (String.ofList text) default none⟩] } } := by
  have announced : LabelState.applyToken {} ⟨.caret, ['F', 'H'], [indicator]⟩ =
      .ok { field := { indicator := some indicator } } := by
    show LabelState.apply {} (.escapes (Command.indicator [indicator])) = _
    rw [indicator_of_not_blank notBlank]
    rfl
  have filled : LabelState.applyToken { field := { indicator := some indicator } }
      ⟨.caret, ['F', 'D'], escaped⟩ =
        .ok { field := { indicator := some indicator, data := some text } } := by
    show (HexEscape.decode indicator escaped).map _ = _
    rw [decoded]
    rfl
  rw [foldlM_cons_of_ok _ announced, foldlM_cons_of_ok _ filled]
  rfl

/--
Every text is carried by field data.  Whatever character that neither is blank nor opens a command
announces the escapes, the text has escapings, and each of them is read as one label with one
element, which prints the text.
-/
theorem readText_of_escaping (text : String) {indicator : Char}
    (notBlank : isBlank indicator = false) (plain : opensCommand indicator = false) :
    (∃ escaped, Escaping indicator text.toList escaped) ∧
      ∀ escaped, Escaping indicator text.toList escaped →
        readText ("^XA^FH".toList ++ indicator ::
          ("^FD".toList ++ escaped ++ "^FS^XZ".toList)) =
            .ok [{ elements := #[⟨⟨0, 0, .topLeft⟩, false, .text text default none⟩] }] := by
  refine ⟨exists_escaping indicator text.toList, ?_⟩
  intro escaped escaping
  have decoded := HexEscape.decode_of_spells_encode escaping.spells
  have run := run_field notBlank decoded
  rw [String.ofList_toList] at run
  rw [readText, scan_field notBlank plain escaping]
  refine readTokens_label ?_ run
  simp [Token.opensLabel, Token.closesLabel]

/-- The indicator is a digit itself, and a character stands between the escapes of its text. -/
theorem readText_of_digit_indicator :
    isBlank 'A' = false ∧ opensCommand 'A' = false ∧
      Escaping 'A' "é^~A".toList "AC3Aa9A5e~A41".toList ∧
        readText "^XA^FHA^FDAC3Aa9A5e~A41^FS^XZ".toList =
          .ok [{ elements := #[⟨⟨0, 0, .topLeft⟩, false, .text "é^~A" default none⟩] }] := by
  have escaping : Escaping 'A' ['é', '^', '~', 'A']
      (['A', 'C', '3', 'A', 'a', '9'] ++
        (['A', '5', 'e'] ++ '~' :: (['A', '4', '1'] ++ []))) := by
    refine .escape ?_ (.escape ?_ (.verbatim rfl (by decide) (.escape ?_ .nil)))
    · exact .cons (by decide) (by decide) (.cons (by decide) (by decide) .nil)
    · exact .cons (by decide) (by decide) .nil
    · exact .cons (by decide) (by decide) .nil
  exact ⟨rfl, rfl, escaping, (readText_of_escaping "é^~A" rfl rfl).2 _ escaping⟩

end Field

end LabelPress.Markup
