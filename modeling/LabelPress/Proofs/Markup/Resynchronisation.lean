import LabelPress.Proofs.Markup.Scanning

/-!
# Scanning picks up again at a caret

Where a caret follows a piece of markup, the command it opens is found whatever the piece ends in:
parameters, field data, or a command whose code is cut off.  The one exception is a piece that
leaves a lone opening character (`LeavesLead`).  The caret then becomes the first character of that
command's code, which is not looked at as the second one is, and the command behind is lost.

The main statement (`scan_append_caret_iff`) says exactly when nothing is lost, and that the same
exception is the only way in which an opening character comes into a code.
-/

namespace LabelPress.Markup.Token

/-- Reading a text comes to an opening character that is the last character of the text. -/
def LeavesLead (text : List Char) : Prop :=
  ∃ tokens, ∃ lead : Lead, Reads text tokens [lead.toChar]

/-! ## An opening character as the first character of a code -/

theorem not_font_of_lead (lead first : Lead) :
    ¬ (lead = .caret ∧ first.toChar.toUpper = 'A') := by
  rintro ⟨-, isLetter⟩
  rw [Lead.toUpper_toChar] at isLetter
  cases first <;> cases isLetter

/-- Three opening characters in a row: the first two are skipped. -/
theorem scan_three_leads (lead first second : Lead) (text : List Char) :
    scan (lead.toChar :: first.toChar :: second.toChar :: text) =
      scan (second.toChar :: text) := by
  refine scan_cons_damaged ?_
  rw [code?_pair _ _ (not_font_of_lead lead first), opensCommand_toChar]
  rfl

/-- Behind an opening character another one is the first character of a code. -/
theorem code?_lead (lead first : Lead) {second : Char} (text : List Char)
    (plain : opensCommand second = false) :
    code? lead (first.toChar :: second :: text) =
      some ([first.toChar, second.toUpper], text) := by
  rw [code?_pair _ _ (not_font_of_lead lead first), plain, Lead.toUpper_toChar]
  rfl

/-- The parameters of a command whose code holds an opening character end at the next one. -/
theorem afterParams_of_lead {first : Lead} {second : Char} {text : List Char}
    (stops : ∀ character rest, text = character :: rest → opensCommand character = true) :
    afterParams [first.toChar, second] text = text := by
  cases text with
  | nil =>
      rfl
  | cons character rest =>
      have notData : dataCodes.contains [first.toChar, second] = false := by
        cases first <;> simp [dataCodes, Lead.toChar]
      rcases opensCommand_iff.mp (stops character rest rfl) with ⟨lead, rfl⟩
      have ends : endsParams [first.toChar, second] lead.toChar = true := by
        rw [endsParams, notData]
        cases lead <;> rfl
      rw [afterParams, List.dropWhile_cons, ends]
      rfl

theorem code_plain_of_complete {lead : Lead} {first : Char} {rest code text : List Char}
    (plain : opensCommand first = false)
    (complete : code? lead (first :: rest) = some (code, text)) :
    ∀ character ∈ code, opensCommand character = false := by
  rcases code?_eq_some_iff.mp complete with
    ⟨_, -, -, rfl⟩ | ⟨_, second, -, secondPlain, equal, rfl⟩
  · intro character member
    rw [List.mem_singleton.mp member]
    rfl
  · cases equal
    intro character member
    rcases List.mem_cons.mp member with rfl | member
    · rw [opensCommand_toUpper, plain]
    · rw [List.mem_singleton.mp member, opensCommand_toUpper, secondPlain]

/-- Where a code is cut off, its first character stands alone or in front of an opening one. -/
theorem stops_of_cutOff {lead : Lead} {first : Char} {text : List Char}
    (cutOff : code? lead (first :: text) = none) :
    ∀ character rest, text = character :: rest → opensCommand character = true := by
  rintro character rest rfl
  by_cases isFont : lead = .caret ∧ first.toUpper = 'A'
  · rw [code?_font _ isFont] at cutOff
    cases cutOff
  · rw [code?_pair _ _ isFont] at cutOff
    split at cutOff
    · rename_i opens
      exact opens
    · cases cutOff

/-- A second opening character in front of a command takes its place in the tokens. -/
theorem scan_two_leads_ne {lead first : Lead} {second : Char} (text : List Char)
    (plain : opensCommand second = false) :
    scan (lead.toChar :: first.toChar :: second :: text) ≠
      scan (first.toChar :: second :: text) := by
  intro same
  rw [scan_cons_command (code?_lead lead first text plain)] at same
  cases complete : code? first (second :: text) with
  | none =>
      -- The command that was cut off yields no token, the longer one does.
      have stops := stops_of_cutOff complete
      rw [scan_cons_damaged complete, afterParams_of_lead stops, List.tail_cons] at same
      have sizes := congrArg Array.size same
      simp at sizes
  | some found =>
      -- Both commands yield a token, of which one has an opening character in its code.
      rcases found with ⟨code, params⟩
      rw [scan_cons_command complete] at same
      have tokens := congrArg Array.toList same
      simp only [Array.toList_append, List.singleton_append, List.cons.injEq] at tokens
      have codes : [first.toChar, second.toUpper] = code := congrArg Token.code tokens.1
      have codePlain := code_plain_of_complete plain complete first.toChar
        (codes ▸ List.mem_cons_self)
      rw [opensCommand_toChar] at codePlain
      cases codePlain

/--
An opening character in front of another one makes no difference exactly if nothing but opening
characters follows.
-/
theorem scan_lead_cons_eq_iff (lead first : Lead) (text : List Char) :
    scan (lead.toChar :: first.toChar :: text) = scan (first.toChar :: text) ↔
      ∀ character ∈ text, opensCommand character = true := by
  induction text generalizing lead first with
  | nil =>
      have cutOff : code? lead [first.toChar] = none :=
        code?_single (not_font_of_lead lead first)
      have empty : code? first [] = none := rfl
      rw [scan_cons_damaged cutOff, scan_cons_damaged empty]
      simp
  | cons second text ih =>
      cases opens : opensCommand second with
      | true =>
          rcases opensCommand_iff.mp opens with ⟨next, rfl⟩
          rw [scan_three_leads, eq_comm, ih first next]
          simp
      | false =>
          constructor
          · intro same
            exact absurd same (scan_two_leads_ne text opens)
          · intro allOpen
            rw [allOpen second List.mem_cons_self] at opens
            cases opens

/-! ## Two pieces of markup -/

theorem scan_append_of_reads_all {front : List Char} {tokens : List Token}
    (reads : Reads front tokens []) (behind : List Char) :
    scan (front ++ '^' :: behind) = scan front ++ scan ('^' :: behind) := by
  apply Array.toList_inj.mp
  rw [(reads.append_caret behind).scan_eq, Array.toList_append, reads.scan_eq]
  simp

theorem scan_append_of_reads_lead {front : List Char} {tokens : List Token} {lead : Lead}
    (reads : Reads front tokens [lead.toChar]) (behind : List Char) :
    scan (front ++ '^' :: behind) = scan front ++ scan ('^' :: behind) ↔
      scan (lead.toChar :: '^' :: behind) = scan ('^' :: behind) := by
  have lone : scan [lead.toChar] = #[] := by
    have cutOff : code? lead [] = none := rfl
    rw [scan_cons_damaged cutOff, List.tail_nil, scan_nil]
  rw [← Array.toList_inj, (reads.append_caret behind).scan_eq, Array.toList_append,
    reads.scan_eq, lone, ← Array.toList_inj]
  simp

/-- What scanning finds behind a piece of markup is lost only behind a lone opening character. -/
theorem scan_append_eq_iff (front behind : List Char) :
    scan (front ++ '^' :: behind) = scan front ++ scan ('^' :: behind) ↔
      (LeavesLead front → ∀ character ∈ behind, opensCommand character = true) := by
  constructor
  · rintro same ⟨tokens, lead, reads⟩
    have dropped := (scan_append_of_reads_lead reads behind).mp same
    exact (scan_lead_cons_eq_iff lead .caret behind).mp dropped
  · intro harmless
    rcases exists_reads front with ⟨tokens, toEnd | ⟨lead, toLead⟩⟩
    · exact scan_append_of_reads_all toEnd behind
    · refine (scan_append_of_reads_lead toLead behind).mpr ?_
      exact (scan_lead_cons_eq_iff lead .caret behind).mpr (harmless ⟨tokens, lead, toLead⟩)

/-- A text that leaves an opening character ends in it. -/
theorem LeavesLead.eq_append {text : List Char} (leaves : LeavesLead text) :
    ∃ front, ∃ lead : Lead, text = front ++ [lead.toChar] := by
  rcases leaves with ⟨tokens, lead, reads⟩
  rcases reads.suffix with ⟨front, equal⟩
  exact ⟨front, lead, equal.symm⟩

/-- An opening character comes into a code exactly behind another one. -/
theorem exists_lead_in_code_iff (text : List Char) :
    (∃ token ∈ (scan text).toList, ∃ character ∈ token.code,
        opensCommand character = true) ↔
      ∃ tokens, ∃ lead first : Lead, ∃ second rest, opensCommand second = false ∧
        Reads text tokens (lead.toChar :: first.toChar :: second :: rest) := by
  constructor
  · rintro ⟨token, member, character, inCode, opens⟩
    obtain ⟨tokens, lead, rest, code, params, reads, complete, rfl⟩ :=
      mem_scan_iff.mp member
    cases rest with
    | nil =>
        cases complete
    | cons first rest =>
        cases firstOpens : opensCommand first with
        | false =>
            rw [code_plain_of_complete firstOpens complete character inCode] at opens
            cases opens
        | true =>
            rcases opensCommand_iff.mp firstOpens with ⟨next, rfl⟩
            rcases code?_eq_some_iff.mp complete with
              ⟨letter, isFont, equal, -⟩ | ⟨_, second, -, plain, equal, -⟩
            · cases equal
              exact absurd isFont (not_font_of_lead lead next)
            · cases equal
              exact ⟨tokens, lead, next, second, params, plain, reads⟩
  · rintro ⟨tokens, lead, first, second, rest, plain, reads⟩
    refine ⟨_, mem_scan_iff.mpr
      ⟨tokens, lead, _, _, _, reads, code?_lead lead first rest plain, rfl⟩, ?_⟩
    exact ⟨first.toChar, List.mem_cons_self, opensCommand_toChar first⟩

/-- A command that is cut off behind one character is skipped up to a caret. -/
theorem scan_cutOff_caret {lead : Lead} {first : Char} (behind : List Char)
    (cutOff : code? lead [first] = none) :
    scan (lead.toChar :: first :: '^' :: behind) = scan ('^' :: behind) := by
  refine scan_cons_damaged ?_
  have still := code?_append_caret lead first [] behind
  rwa [cutOff] at still

/--
A caret starts a new command behind any piece of markup, unless the piece leaves a lone opening
character and something else than opening characters follows.  Such a piece ends in the character.
A code holds an opening character exactly where two of them are read in front of another
character; a command that is cut off behind one character loses nothing.
-/
theorem scan_append_caret_iff (front behind : List Char) :
    (scan (front ++ '^' :: behind) = scan front ++ scan ('^' :: behind) ↔
        (LeavesLead front → ∀ character ∈ behind, opensCommand character = true)) ∧
      (LeavesLead front → ∃ text, ∃ lead : Lead, front = text ++ [lead.toChar]) ∧
      ((∃ token ∈ (scan front).toList, ∃ character ∈ token.code,
          opensCommand character = true) ↔
        ∃ tokens, ∃ lead first : Lead, ∃ second rest, opensCommand second = false ∧
          Reads front tokens (lead.toChar :: first.toChar :: second :: rest)) ∧
      ∀ lead first, code? lead [first] = none →
        scan (lead.toChar :: first :: '^' :: behind) = scan ('^' :: behind) := by
  refine ⟨scan_append_eq_iff front behind, LeavesLead.eq_append,
    exists_lead_in_code_iff front, ?_⟩
  intro lead first cutOff
  exact scan_cutOff_caret behind cutOff

/-- The command behind a lone caret is scanned as another one. -/
theorem scan_caret_caret :
    scan ("^".toList ++ "^XA".toList) = #[⟨.caret, ['^', 'X'], ['A']⟩] ∧
      scan "^".toList ++ scan "^XA".toList = #[⟨.caret, ['X', 'A'], []⟩] := by
  constructor <;> with_unfolding_all rfl

end LabelPress.Markup.Token
