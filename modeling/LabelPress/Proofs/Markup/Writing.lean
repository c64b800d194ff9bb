import LabelPress.Proofs.Markup.Scanning
import Mathlib.Data.List.Chain

/-!
# Written commands are scanned as they were meant

A list of commands may be written in many ways: the letters of a code in either case, line breaks
anywhere in the parameters, and any text without commands in front (`Token.WrittenAs`,
`WritesAll`).  A command can be written if its code is one that is scanned as a whole and its
parameters hold nothing that ends them (`Token.Writable`).  Field data and comments end at a caret
only, so that no tilde may follow them (`Token.MayPrecede`).

The main statement (`Token.scan_of_writesAll`) is that every way of writing is scanned as the list.
-/

namespace LabelPress.Markup.Token

/-- Field data and comments, whose parameters may hold tildes. -/
def HoldsData (token : Token) : Prop :=
  token.code = ['F', 'D'] ∨ token.code = ['F', 'V'] ∨ token.code = ['F', 'X']

/-- The code of the font command, or two characters in upper case. -/
inductive HasCode : Lead → List Char → Prop where
  | font : HasCode .caret ['A']
  | pair {lead : Lead} {first second : Char}
      (firstUpper : first.toUpper = first)
      (secondUpper : second.toUpper = second)
      (firstPlain : opensCommand first = false)
      (secondPlain : opensCommand second = false)
      (notFont : lead = .caret → first ≠ 'A') :
      HasCode lead [first, second]

/-- A command that can be written so that nothing of it is lost. -/
structure Writable (token : Token) : Prop where
  code : HasCode token.lead token.code
  unbroken : ∀ character ∈ token.params, character ≠ '\r' ∧ character ≠ '\n'
  inside : ∀ character ∈ token.params,
    character ≠ '^' ∧ (character = '~' → token.HoldsData)

/-- A text writes a command: its code in any case, its parameters with line breaks added. -/
def WrittenAs (token : Token) (text : List Char) : Prop :=
  ∃ letters params,
    letters.map Char.toUpper = token.code ∧
      params.filter (!isLineBreak ·) = token.params ∧
        text = token.lead.toChar :: (letters ++ params)

/-- A text writes commands one after another. -/
inductive WritesAll : List Token → List Char → Prop where
  | nil : WritesAll [] []
  | cons {token : Token} {tokens : List Token} {front behind : List Char}
      (first : token.WrittenAs front)
      (later : WritesAll tokens behind) :
      WritesAll (token :: tokens) (front ++ behind)

/-- A command may be followed by another one; behind data it has to open with a caret. -/
def MayPrecede (token next : Token) : Prop :=
  token.HoldsData → next.lead = .caret

/-! ## One command -/

theorem contains_dataCodes_iff (token : Token) :
    dataCodes.contains token.code = true ↔ token.HoldsData := by
  simp [dataCodes, HoldsData]

/-- A code is read from its letters in either case, whatever stands behind them. -/
theorem HasCode.code?_append
    {lead : Lead}
    {code letters : List Char}
    (has : HasCode lead code)
    (spelled : letters.map Char.toUpper = code)
    (behind : List Char) :
    code? lead (letters ++ behind) = some (code, behind) := by
  cases has with
  | font =>
      obtain ⟨letter, rfl, upper⟩ := List.map_eq_singleton_iff.mp spelled
      exact code?_font behind ⟨rfl, upper⟩
  | pair _ _ firstPlain secondPlain notFont =>
      obtain ⟨first, rest, rfl, rfl, restSpelled⟩ := List.map_eq_cons_iff.mp spelled
      obtain ⟨second, rfl, rfl⟩ := List.map_eq_singleton_iff.mp restSpelled
      rw [opensCommand_toUpper] at secondPlain
      have pairCode := code?_pair second behind fun isFont => notFont isFont.1 isFont.2
      rw [secondPlain] at pairCode
      exact pairCode

section Commands

variable {token : Token}

/-- Parameters with line breaks in them hold nothing that ends them. -/
theorem Writable.endsParams_eq_false
    (writable : token.Writable)
    {params : List Char}
    (broken : params.filter (!isLineBreak ·) = token.params) :
    ∀ character ∈ params, endsParams token.code character = false := by
  intro character member
  cases breaks : isLineBreak character with
  | true =>
      rw [isLineBreak, Bool.or_eq_true, decide_eq_true_eq, decide_eq_true_eq] at breaks
      rcases breaks with rfl | rfl <;> rfl
  | false =>
      have kept : character ∈ token.params := by
        rw [← broken, List.mem_filter, breaks]
        exact ⟨member, rfl⟩
      obtain ⟨notCaret, onlyInData⟩ := writable.inside character kept
      have tilde : (character = '~' && !dataCodes.contains token.code) = false := by
        by_cases isTilde : character = '~'
        · rw [(contains_dataCodes_iff token).mpr (onlyInData isTilde)]
          exact Bool.and_false _
        · rw [decide_eq_false isTilde]
          rfl
      rw [endsParams, decide_eq_false notCaret, tilde]
      rfl

/-- What opens the next command ends the parameters in front of it. -/
theorem MayPrecede.endsParams_eq_true
    {next : Token}
    (mayPrecede : token.MayPrecede next) :
    endsParams token.code next.lead.toChar = true := by
  cases lead : next.lead with
  | caret =>
      exact endsParams_caret token.code
  | tilde =>
      have noData : ¬ token.HoldsData := by
        intro holds
        rw [mayPrecede holds] at lead
        cases lead
      rw [← contains_dataCodes_iff, Bool.not_eq_true] at noData
      rw [endsParams, noData]
      rfl

end Commands

/-! ## Commands one after another -/

theorem WritesAll.eq_cons
    {next : Token}
    {tokens : List Token}
    {text : List Char}
    (writes : WritesAll (next :: tokens) text) :
    ∃ rest, text = next.lead.toChar :: rest := by
  cases writes with
  | cons first later =>
      obtain ⟨letters, params, -, -, rfl⟩ := first
      exact ⟨_, rfl⟩

/-- Commands are read one by one from a text that writes them. -/
theorem WritesAll.reads
    {tokens : List Token}
    {text : List Char}
    (writes : WritesAll tokens text)
    (writable : ∀ token ∈ tokens, token.Writable)
    (ordered : tokens.IsChain MayPrecede) :
    Reads text tokens [] := by
  induction writes with
  | nil =>
      exact .here
  | @cons token tokens front behind first later ih =>
      obtain ⟨tokenWritable, tokensWritable⟩ := List.forall_mem_cons.mp writable
      obtain ⟨letters, params, spelled, broken, rfl⟩ := first
      have stops : ∀ character rest, behind = character :: rest →
          endsParams token.code character = true := by
        intro character rest equal
        cases later with
        | nil =>
            cases equal
        | @cons next tokens _ _ nextWritten others =>
            obtain ⟨nextRest, opening⟩ := (WritesAll.cons nextWritten others).eq_cons
            rw [opening] at equal
            cases equal
            exact (List.isChain_cons_cons.mp ordered).1.endsParams_eq_true
      have complete := tokenWritable.code.code?_append spelled (params ++ behind)
      rw [← List.append_assoc] at complete
      have reads := Reads.front complete (tokenWritable.endsParams_eq_false broken) stops
        (ih tokensWritable ordered.tail)
      rw [broken] at reads
      exact reads

/-- Text in front of all commands is skipped. -/
theorem Reads.of_leading
    {leading text left : List Char}
    {tokens : List Token}
    (unopened : ∀ character ∈ leading, opensCommand character = false)
    (reads : Reads text tokens left) :
    Reads (leading ++ text) tokens left := by
  induction leading with
  | nil =>
      exact reads
  | cons character leading ih =>
      obtain ⟨plain, later⟩ := List.forall_mem_cons.mp unopened
      exact .text (Lead.ofChar?_of_plain plain) (ih later)

/--
Scanning recovers the commands that were written.  However they are written, one after another and
behind any text without opening characters, the tokens of the whole are the commands in their order,
if each of them can be written and none opens with a tilde behind field data or a comment.
-/
theorem scan_of_writesAll
    {tokens : List Token}
    {leading text : List Char}
    (writable : ∀ token ∈ tokens, token.Writable)
    (ordered : tokens.IsChain MayPrecede)
    (unopened : ∀ character ∈ leading, opensCommand character = false)
    (writes : WritesAll tokens text) :
    scan (leading ++ text) = tokens.toArray := by
  have reads := (writes.reads writable ordered).of_leading unopened
  apply Array.toList_inj.mp
  rw [reads.scan_eq, scan_nil]
  exact List.append_nil tokens

/-- A font in lower case, a tilde in data, and line breaks where they do not count. -/
theorem scan_of_writesAll_mixed :
    let tokens : List Token :=
      [⟨.caret, ['A'], ['0', 'N']⟩, ⟨.caret, ['F', 'D'], ['a', '~', 'b']⟩, ⟨.caret, ['F', 'S'], []⟩,
        ⟨.tilde, ['A', '1'], []⟩]
    let leading := "x\ny".toList
    let text := "^a0\nN^Fd\ra~\nb^fs\r\n~a1".toList
    (∀ token ∈ tokens, token.Writable) ∧ tokens.IsChain MayPrecede ∧
      (∀ character ∈ leading, opensCommand character = false) ∧ WritesAll tokens text ∧
        scan (leading ++ text) = tokens.toArray := by
  intro tokens leading text
  have writable : ∀ token ∈ tokens, token.Writable := by
    intro token member
    simp only [tokens, List.mem_cons, List.not_mem_nil, or_false] at member
    rcases member with rfl | rfl | rfl | rfl
    · exact ⟨.font, by simp, by simp⟩
    · exact ⟨.pair rfl rfl rfl rfl (by decide), by simp, by simp [HoldsData]⟩
    · exact ⟨.pair rfl rfl rfl rfl (by decide), by simp, by simp [HoldsData]⟩
    · exact ⟨.pair rfl rfl rfl rfl (by decide), by simp, by simp [HoldsData]⟩
  have ordered : tokens.IsChain MayPrecede := by
    simp [tokens, MayPrecede, HoldsData]
  have unopened : ∀ character ∈ leading, opensCommand character = false := by
    simp [leading, opensCommand]
  have writes : WritesAll tokens text :=
    .cons ⟨['a'], ['0', '\n', 'N'], rfl, rfl, rfl⟩ <|
      .cons ⟨['F', 'd'], ['\r', 'a', '~', '\n', 'b'], rfl, rfl, rfl⟩ <|
        .cons ⟨['f', 's'], ['\r', '\n'], rfl, rfl, rfl⟩ <|
          .cons ⟨['a', '1'], [], rfl, rfl, rfl⟩ .nil
  exact ⟨writable, ordered, unopened, writes,
    scan_of_writesAll writable ordered unopened writes⟩

end LabelPress.Markup.Token
