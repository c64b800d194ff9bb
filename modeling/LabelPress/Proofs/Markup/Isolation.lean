import LabelPress.Proofs.Markup.FieldData
import LabelPress.Proofs.Markup.Resynchronisation
import Mathlib.Tactic.ByContra

/-!
# Labels do not depend on each other

Markup is read in one pass, in which a label may be closed by `^XZ`, by the next `^XA` or by the
end of the markup.  The same labels are found by cutting the tokens first: behind each `^XA` a
segment goes up to the next token that opens or closes a label (`segments`), and each segment makes
a label of its own, from fresh settings on (`readSegment`).

The main statement (`readText_isolated`) says that both agree, also in the error that is reported.
With it come the number of labels, the tokens that make no difference, and the labels of two texts
that are joined.
-/

namespace LabelPress.Markup

/-! ## Segments -/

/-- Whether a token stands between the ends of a label. -/
def Token.inLabel (token : Token) : Bool :=
  !token.opensLabel && !token.closesLabel

/--
The tokens of each label: they begin behind a token that opens a label, and end in front of the
next one that opens or closes a label.
-/
def segments : List Token → List (List Token)
  | [] => []
  | token :: tokens =>
    if token.opensLabel then tokens.takeWhile Token.inLabel :: segments tokens
    else segments tokens

/-- The label of a segment, whose tokens are carried out from fresh settings on. -/
def readSegment (tokens : List Token) : Except MarkupError Label :=
  (tokens.foldlM LabelState.applyToken {}).map LabelState.finish

theorem segments_cons_of_opens {token : Token} (tokens : List Token)
    (opens : token.opensLabel = true) :
    segments (token :: tokens) = tokens.takeWhile Token.inLabel :: segments tokens := by
  rw [segments, if_pos opens]

theorem segments_cons_of_not_opens {token : Token} (tokens : List Token)
    (notOpening : token.opensLabel = false) :
    segments (token :: tokens) = segments tokens := by
  rw [segments, notOpening]
  rfl

/-- There are as many segments as tokens that open a label. -/
theorem length_segments (tokens : List Token) :
    (segments tokens).length = tokens.countP Token.opensLabel := by
  induction tokens with
  | nil =>
      rfl
  | cons token tokens ih =>
      cases opens : token.opensLabel with
      | true =>
          rw [segments_cons_of_opens tokens opens, List.length_cons, ih,
            List.countP_cons_of_pos opens]
      | false =>
          rw [segments_cons_of_not_opens tokens opens, ih,
            List.countP_cons_of_neg (by simp [opens])]

theorem takeWhile_inLabel_append (front : List Token) {stop : Token} (behind : List Token)
    (ends : stop.inLabel = false) :
    (front ++ stop :: behind).takeWhile Token.inLabel = front.takeWhile Token.inLabel := by
  induction front with
  | nil =>
      simp [ends]
  | cons token front ih =>
      rw [List.cons_append, List.takeWhile_cons, List.takeWhile_cons, ih]

/-- A token that opens a label ends the segment in front of it. -/
theorem segments_append_of_opens (front : List Token) {token : Token} (behind : List Token)
    (opens : token.opensLabel = true) :
    segments (front ++ token :: behind) = segments front ++ segments (token :: behind) := by
  have ends : token.inLabel = false := by
    rw [Token.inLabel, opens]
    rfl
  induction front with
  | nil =>
      rfl
  | cons first front ih =>
      cases firstOpens : first.opensLabel with
      | true =>
          rw [List.cons_append, segments_cons_of_opens _ firstOpens,
            segments_cons_of_opens _ firstOpens, takeWhile_inLabel_append _ _ ends, ih,
            List.cons_append]
      | false =>
          rw [List.cons_append, segments_cons_of_not_opens _ firstOpens,
            segments_cons_of_not_opens _ firstOpens, ih]

/-! ## One pass over the tokens -/

/-- The labels once the tokens behind a piece of markup are read, too. -/
def Reading.labelsBehind (reading : Reading) (tokens : List Token) :
    Except MarkupError (List Label) :=
  (tokens.foldlM Reading.step reading).map fun reading => reading.close.finished.toList

theorem readTokens_eq_labelsBehind (tokens : List Token) :
    readTokens tokens = Reading.labelsBehind {} tokens := by
  rw [readTokens, Reading.labelsBehind]
  cases tokens.foldlM Reading.step {} <;> rfl

theorem Reading.labelsBehind_cons {reading after : Reading} {token : Token}
    (tokens : List Token) (step : reading.step token = .ok after) :
    reading.labelsBehind (token :: tokens) = after.labelsBehind tokens := by
  rw [labelsBehind, foldlM_cons_of_ok tokens step]
  rfl

theorem Reading.step_of_outside {reading : Reading} {token : Token}
    (outside : reading.current = none) (notOpening : token.opensLabel = false) :
    reading.step token = .ok reading := by
  have close : reading.close = reading := by
    rw [Reading.close, outside]
  rw [step, notOpening, close, outside]
  cases token.closesLabel <;> rfl

/-- The end of a label is read as if the label had been closed before. -/
theorem Reading.step_close {reading : Reading} {token : Token}
    (ends : token.inLabel = false) :
    reading.close.step token = reading.step token := by
  have twice : reading.close.close = reading.close := by
    rcases reading with ⟨finished, _ | state⟩ <;> rfl
  rw [Token.inLabel, Bool.and_eq_false_iff, Bool.not_eq_false', Bool.not_eq_false'] at ends
  rw [step, step, twice]
  rcases ends with opens | closes
  · rw [opens]
    rfl
  · rw [closes]
    rfl

theorem Reading.labelsBehind_close (reading : Reading) {token : Token} (tokens : List Token)
    (ends : token.inLabel = false) :
    reading.close.labelsBehind (token :: tokens) = reading.labelsBehind (token :: tokens) := by
  rw [labelsBehind, labelsBehind, List.foldlM_cons, List.foldlM_cons, step_close ends]

/-- A token of an open label is applied to it, and what fails there fails the reading. -/
theorem Reading.labelsBehind_inside (finished : Array Label) (state : LabelState) {token : Token}
    (tokens : List Token) (inside : token.inLabel = true) :
    Reading.labelsBehind ⟨finished, some state⟩ (token :: tokens) =
      state.applyToken token >>= fun after =>
        Reading.labelsBehind ⟨finished, some after⟩ tokens := by
  rw [Token.inLabel, Bool.and_eq_true, Bool.not_eq_true', Bool.not_eq_true'] at inside
  have step : Reading.step ⟨finished, some state⟩ token = _ :=
    Reading.step_of_open rfl inside.1 inside.2
  cases applied : state.applyToken token with
  | error fault =>
      rw [applied] at step
      rw [labelsBehind, List.foldlM_cons, step]
      rfl
  | ok after =>
      rw [applied] at step
      exact labelsBehind_cons tokens step

theorem segments_cons_of_inside {token : Token} (tokens : List Token)
    (inside : token.inLabel = true) : segments (token :: tokens) = segments tokens := by
  rw [Token.inLabel, Bool.and_eq_true, Bool.not_eq_true'] at inside
  exact segments_cons_of_not_opens tokens inside.1

/-- The labels of segments stand behind those of the first one. -/
theorem mapM_readSegment_cons (first : List Token) (later : List (List Token)) :
    (first :: later).mapM readSegment = do
      let state ← first.foldlM LabelState.applyToken {}
      let labels ← later.mapM readSegment
      return state.finish :: labels := by
  rw [List.mapM_cons, readSegment]
  cases first.foldlM LabelState.applyToken {} <;> rfl

/--
What one pass makes of the tokens that are left.  An open label takes up the tokens up to its end;
behind it, and where no label is open, there are the labels of the segments.
-/
theorem labelsBehind_eq (tokens : List Token) (finished : Array Label) :
    Reading.labelsBehind ⟨finished, none⟩ tokens =
        ((segments tokens).mapM readSegment).map (finished.toList ++ ·) ∧
      ∀ state, Reading.labelsBehind ⟨finished, some state⟩ tokens = do
        let state ← (tokens.takeWhile Token.inLabel).foldlM LabelState.applyToken state
        let labels ← (segments tokens).mapM readSegment
        return finished.toList ++ state.finish :: labels := by
  induction tokens generalizing finished with
  | nil =>
      constructor
      · show Except.ok finished.toList = .ok (finished.toList ++ [])
        rw [List.append_nil]
      · intro state
        show Except.ok (finished.push state.finish).toList = _
        rw [Array.toList_push]
        rfl
  | cons token tokens ih =>
      have outside : ∀ finished, Reading.labelsBehind ⟨finished, none⟩ (token :: tokens) =
          ((segments (token :: tokens)).mapM readSegment).map (finished.toList ++ ·) := by
        intro finished
        cases opens : token.opensLabel with
        | true =>
            have step : Reading.step ⟨finished, none⟩ token = .ok ⟨finished, some {}⟩ := by
              rw [Reading.step, opens]
              rfl
            rw [Reading.labelsBehind_cons tokens step, (ih finished).2,
              segments_cons_of_opens tokens opens, mapM_readSegment_cons]
            cases (tokens.takeWhile Token.inLabel).foldlM LabelState.applyToken {} with
            | error fault =>
                rfl
            | ok state =>
                cases (segments tokens).mapM readSegment <;> rfl
        | false =>
            rw [Reading.labelsBehind_cons tokens (Reading.step_of_outside rfl opens),
              segments_cons_of_not_opens tokens opens, (ih finished).1]
      refine ⟨outside finished, ?_⟩
      intro state
      cases inside : token.inLabel with
      | true =>
          rw [Reading.labelsBehind_inside finished state tokens inside,
            segments_cons_of_inside tokens inside, List.takeWhile_cons, if_pos inside,
            List.foldlM_cons]
          cases state.applyToken token with
          | error fault =>
              rfl
          | ok after =>
              exact (ih finished).2 after
      | false =>
          -- The end of a label closes the open one, and the rest is read as outside of it.
          have closed : Reading.close ⟨finished, some state⟩ =
              ⟨finished.push state.finish, none⟩ := rfl
          rw [← Reading.labelsBehind_close _ tokens inside, closed, outside, Array.toList_push,
            List.takeWhile_cons, inside]
          cases (segments (token :: tokens)).mapM readSegment with
          | error fault =>
              rfl
          | ok labels =>
              show Except.ok (finished.toList ++ [state.finish] ++ labels) = _
              rw [List.append_assoc]
              rfl

/-- The labels of tokens are those of the segments, or the first error in one of them. -/
theorem readTokens_eq_mapM (tokens : List Token) :
    readTokens tokens = (segments tokens).mapM readSegment := by
  rw [readTokens_eq_labelsBehind]
  refine (labelsBehind_eq tokens #[]).1.trans ?_
  cases (segments tokens).mapM readSegment <;> rfl

/-! ## What does not matter for a label -/

/-- A label is open behind these tokens. -/
def LeavesOpen (tokens : List Token) : Prop :=
  ∃ front opening inside, tokens = front ++ opening :: inside ∧ opening.opensLabel = true ∧
    ∀ token ∈ inside, token.inLabel = true

theorem LeavesOpen.cons {tokens : List Token} (leaves : LeavesOpen tokens) (token : Token) :
    LeavesOpen (token :: tokens) := by
  rcases leaves with ⟨front, opening, inside, rfl, opens, allInside⟩
  exact ⟨token :: front, opening, inside, rfl, opens, allInside⟩

/-- A token outside of every label cuts no segment and belongs to none. -/
theorem segments_insert_outside {front : List Token} {token : Token} (behind : List Token)
    (notOpening : token.opensLabel = false) (outside : ¬ LeavesOpen front) :
    segments (front ++ token :: behind) = segments (front ++ behind) := by
  induction front with
  | nil =>
      exact segments_cons_of_not_opens behind notOpening
  | cons first front ih =>
      have later := ih fun leaves => outside (leaves.cons first)
      cases opens : first.opensLabel with
      | true =>
          -- The label that the first token opens is closed before the front ends.
          have closed : ∃ stop ∈ front, stop.inLabel = false := by
            by_contra allInside
            refine outside ⟨[], first, front, rfl, opens, ?_⟩
            intro other member
            rw [← Bool.not_eq_false]
            exact fun ends => allInside ⟨other, member, ends⟩
          rcases closed with ⟨stop, member, ends⟩
          rcases List.append_of_mem member with ⟨before, after, rfl⟩
          rw [List.cons_append, segments_cons_of_opens _ opens, later, List.cons_append,
            segments_cons_of_opens _ opens, List.append_assoc, List.append_assoc,
            List.cons_append, List.cons_append, takeWhile_inLabel_append before _ ends,
            takeWhile_inLabel_append before _ ends]
      | false =>
          rw [List.cons_append, segments_cons_of_not_opens _ opens, later, List.cons_append,
            segments_cons_of_not_opens _ opens]

/-- Commands that open with a tilde leave the label and its settings as they are. -/
theorem Reading.step_of_tilde (reading : Reading) {token : Token}
    (tilde : token.lead = .tilde) :
    reading.step token = .ok reading := by
  have notOpening : token.opensLabel = false := by
    rw [Token.opensLabel, tilde]
    rfl
  have notClosing : token.closesLabel = false := by
    rw [Token.closesLabel, tilde]
    rfl
  cases current : reading.current with
  | none =>
      exact step_of_outside current notOpening
  | some state =>
      have applied : state.applyToken token = .ok state := by
        rw [LabelState.applyToken, Command.ofToken, tilde]
        rfl
      rw [step_of_open current notOpening notClosing, applied]
      show Except.ok { reading with current := some state } = _
      rw [← current]

theorem readTokens_insert_tilde (front behind : List Token) {token : Token}
    (tilde : token.lead = .tilde) :
    readTokens (front ++ token :: behind) = readTokens (front ++ behind) := by
  rw [readTokens, readTokens, List.foldlM_append, List.foldlM_append]
  cases front.foldlM Reading.step {} with
  | error fault =>
      rfl
  | ok reading =>
      show ((token :: behind).foldlM Reading.step reading >>= _) = _
      rw [foldlM_cons_of_ok behind (reading.step_of_tilde tilde)]
      rfl

/-- A token that stands outside of every label, or opens with a tilde, makes no difference. -/
theorem readTokens_insert {front : List Token} {token : Token} (behind : List Token)
    (idle : token.lead = .tilde ∨ token.opensLabel = false ∧ ¬ LeavesOpen front) :
    readTokens (front ++ token :: behind) = readTokens (front ++ behind) := by
  rcases idle with tilde | ⟨notOpening, outside⟩
  · exact readTokens_insert_tilde front behind tilde
  · rw [readTokens_eq_mapM, readTokens_eq_mapM, segments_insert_outside behind notOpening outside]

/-! ## Labels of texts -/

theorem length_of_mapM_eq_ok {Item Result Fault : Type} {read : Item → Except Fault Result}
    {items : List Item} {results : List Result} (run : items.mapM read = .ok results) :
    results.length = items.length := by
  induction items generalizing results with
  | nil =>
      cases run
      rfl
  | cons item items ih =>
      rw [List.mapM_cons] at run
      cases first : read item with
      | error fault =>
          rw [first] at run
          cases run
      | ok result =>
          rw [first] at run
          cases rest : items.mapM read with
          | error fault =>
              rw [rest] at run
              cases run
          | ok others =>
              rw [rest] at run
              cases run
              rw [List.length_cons, List.length_cons, ih rest]

/-- The token of `^XA` opens a label, whatever its parameters are. -/
theorem exists_scan_opening (behind : List Char) :
    ∃ opening tokens, (Token.scan ("^XA".toList ++ behind)).toList = opening :: tokens ∧
      opening.opensLabel = true := by
  have complete : Token.code? .caret ('X' :: 'A' :: behind) = some (['X', 'A'], behind) := rfl
  have scanned := Token.scan_cons_command complete
  refine ⟨Token.ofFront .caret ['X', 'A'] behind,
    (Token.scan (Token.afterParams ['X', 'A'] behind)).toList, ?_, rfl⟩
  exact (congrArg Array.toList scanned).trans (Array.toList_append ..)

/-- Behind a text that does not end in an opening character, labels are read on their own. -/
theorem readText_append {text : List Char} (behind : List Char)
    (complete : ∀ last ∈ text.getLast?, opensCommand last = false) :
    readText (text ++ ("^XA".toList ++ behind)) = do
      let labels ← readText text
      let more ← readText ("^XA".toList ++ behind)
      return labels ++ more := by
  have noLead : ¬ Token.LeavesLead text := by
    intro leaves
    rcases leaves.eq_append with ⟨front, lead, rfl⟩
    have plain := complete lead.toChar (by simp)
    rw [opensCommand_toChar] at plain
    cases plain
  have scanned := (Token.scan_append_eq_iff text ('X' :: 'A' :: behind)).mpr
    fun leaves => absurd leaves noLead
  rcases exists_scan_opening behind with ⟨opening, tokens, openingScanned, opens⟩
  have tokensOf : (Token.scan (text ++ ("^XA".toList ++ behind))).toList =
      (Token.scan text).toList ++ opening :: tokens := by
    rw [← openingScanned]
    exact (congrArg Array.toList scanned).trans (Array.toList_append ..)
  rw [readText, readText, readText, tokensOf, openingScanned, readTokens_eq_mapM,
    readTokens_eq_mapM, readTokens_eq_mapM, segments_append_of_opens _ _ opens, List.mapM_append]

/--
Labels are isolated from each other.  The labels of a text are those of its segments, each read
from fresh settings on, or the first error in one of them; there is one for each `^XA`.  Commands
outside of every label and commands that open with a tilde make no difference.  Behind a text that
does not end in an opening character, a text that opens with `^XA` is read on its own, once the text
in front has been read without an error.
-/
theorem readText_isolated (text : List Char) :
    readText text = (segments (Token.scan text).toList).mapM readSegment ∧
      (∀ labels, readText text = .ok labels →
        labels.length = (Token.scan text).toList.countP Token.opensLabel) ∧
      (∀ front token behind, (Token.scan text).toList = front ++ token :: behind →
        token.lead = .tilde ∨ token.opensLabel = false ∧ ¬ LeavesOpen front →
          readText text = readTokens (front ++ behind)) ∧
      ∀ behind, (∀ last ∈ text.getLast?, opensCommand last = false) →
        readText (text ++ ("^XA".toList ++ behind)) = do
          let labels ← readText text
          let more ← readText ("^XA".toList ++ behind)
          return labels ++ more := by
  refine ⟨readTokens_eq_mapM _, ?_, ?_, fun behind => readText_append behind⟩
  · intro labels read
    rw [readText, readTokens_eq_mapM] at read
    rw [length_of_mapM_eq_ok read, length_segments]
  · intro front token behind scanned idle
    rw [readText, scanned, readTokens_insert behind idle]

/-- A text with a stray command and an open label, in front of another label. -/
theorem readText_of_open_label :
    readText "~JA^XZ^XA^FDone".toList =
        .ok [{ elements := #[⟨⟨0, 0, .topLeft⟩, false, .text "one" default none⟩] }] ∧
      (∀ last ∈ "~JA^XZ^XA^FDone".toList.getLast?, opensCommand last = false) ∧
      readText ("~JA^XZ^XA^FDone".toList ++ ("^XA".toList ++ "^FDtwo^XZ".toList)) = (do
        let labels ← readText "~JA^XZ^XA^FDone".toList
        let more ← readText ("^XA".toList ++ "^FDtwo^XZ".toList)
        return labels ++ more) ∧
      ([{ elements := #[⟨⟨0, 0, .topLeft⟩, false, .text "one" default none⟩] }] :
        List Label).length =
          (Token.scan "~JA^XZ^XA^FDone".toList).toList.countP Token.opensLabel ∧
      readText "~JA^XZ^XA^FDone".toList =
        readTokens ([⟨.tilde, ['J', 'A'], []⟩] ++
          [⟨.caret, ['X', 'A'], []⟩, ⟨.caret, ['F', 'D'], ['o', 'n', 'e']⟩]) := by
  have tokens : (Token.scan "~JA^XZ^XA^FDone".toList).toList =
      [⟨.tilde, ['J', 'A'], []⟩] ++ ⟨.caret, ['X', 'Z'], []⟩ ::
        [⟨.caret, ['X', 'A'], []⟩, ⟨.caret, ['F', 'D'], ['o', 'n', 'e']⟩] := by
    with_unfolding_all rfl
  have read : readText "~JA^XZ^XA^FDone".toList =
      .ok [{ elements := #[⟨⟨0, 0, .topLeft⟩, false, .text "one" default none⟩] }] := by
    rw [readText, tokens]
    with_unfolding_all rfl
  have lastCharacter : "~JA^XZ^XA^FDone".toList.getLast? = some 'e' := by
    with_unfolding_all rfl
  have complete : ∀ last ∈ "~JA^XZ^XA^FDone".toList.getLast?, opensCommand last = false := by
    rw [lastCharacter]
    rintro last ⟨⟩
    rfl
  have outside : ¬ LeavesOpen [⟨.tilde, ['J', 'A'], []⟩] := by
    rintro ⟨front, opening, inside, equal, opens, -⟩
    have member : opening ∈ front ++ opening :: inside := by simp
    rw [← equal, List.mem_singleton] at member
    rw [member] at opens
    cases opens
  have isolated := readText_isolated "~JA^XZ^XA^FDone".toList
  exact ⟨read, complete, isolated.2.2.2 "^FDtwo^XZ".toList complete, isolated.2.1 _ read,
    isolated.2.2.1 _ _ _ tokens (Or.inr ⟨rfl, outside⟩)⟩

end LabelPress.Markup
