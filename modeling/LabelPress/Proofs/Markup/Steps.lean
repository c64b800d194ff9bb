import LabelPress.Proofs.Markup.WellFormed

/-!
# What a command changes

Most commands act on the open field only.  The others have a code of their own
(`Command.labelCode?`), so that the code of a token tells how far its command reaches
(`Command.ensures_ofToken_labelCode`).

Two runs of the same commands are compared by a change of the state that every one of the commands
keeps up (`foldlM_applyToken_change`).
-/

namespace LabelPress.Markup

/-! ## The reach of a command -/

namespace Command

/-- The code of a command that acts on more than the open field. -/
def labelCode? : Command → Option (List Char)
  | .home _ _ => some ['L', 'H']
  | .reverseAll _ => some ['L', 'R']
  | .printWidth _ => some ['P', 'W']
  | .labelLength _ => some ['L', 'L']
  | .invert _ => some ['P', 'O']
  | .defaultFont _ => some ['C', 'F']
  | .defaultOrientation _ => some ['F', 'W']
  | .barDefaults _ _ => some ['B', 'Y']
  | .endField => some ['F', 'S']
  | .font _ | .origin _ _ _ | .data _ | .reverse | .escapes _ | .block _ | .request _
  | .nothing => none

/-- A command acts on the open field only, or is one that the code stands for. -/
def FitsCode
    (code : List Char)
    (command : Command) : Prop :=
  command.labelCode? = none ∨ command.labelCode? = some code

theorem ensures_bind_fitsCode
    {Parsed : Type}
    {code : List Char}
    {next : Parsed → Except MarkupError Command}
    (fits : ∀ parsed, Ensures (FitsCode code) (next parsed))
    (outcome : Except MarkupError Parsed) :
    Ensures (FitsCode code) (outcome >>= next) :=
  (ensures_true outcome).bind fun parsed _ => fits parsed

theorem ensures_map_fitsCode
    {Parsed : Type}
    {code : List Char}
    {make : Parsed → Command}
    (fits : ∀ parsed, FitsCode code (make parsed))
    (outcome : Except MarkupError Parsed) :
    Ensures (FitsCode code) (outcome.map make) :=
  (ensures_true outcome).map fun parsed _ => fits parsed

/-- A command that is made of two parameters. -/
theorem ensures_pair_fitsCode
    {First Second : Type}
    {code : List Char}
    {first : Except MarkupError First}
    {second : Except MarkupError Second}
    {make : First → Second → Command}
    (fits : ∀ x y, FitsCode code (make x y)) :
    Ensures (FitsCode code) (do
      let x ← first
      let y ← second
      return make x y) :=
  ensures_bind_fitsCode (fun x => ensures_bind_fitsCode (fun y => ensures_ok (fits x y)) _) _

/-- A code is read as a command of the field, or as the one command with this code. -/
theorem ensures_read_fitsCode
    (code params : List Char) :
    Ensures (FitsCode code) (read code params) := by
  unfold read
  dsimp only
  split
  -- Commands that reach beyond the field, by the number of their parameters.
  case h_2 | h_5 | h_8 | h_13 => exact ensures_ok (Or.inr rfl)
  case h_3 | h_4 | h_6 => exact ensures_map_fitsCode (fun _ => Or.inr rfl) _
  case h_1 | h_17 => exact ensures_pair_fitsCode fun _ _ => Or.inr rfl
  -- Commands of the field.
  case h_11 | h_12 | h_14 | h_15 | h_25 => exact ensures_ok (Or.inl rfl)
  case h_7 | h_19 | h_20 | h_21 | h_22 | h_23 | h_24 =>
    exact ensures_map_fitsCode (fun _ => Or.inl rfl) _
  case h_9 | h_10 => exact ensures_pair_fitsCode fun _ _ => Or.inl rfl
  case h_16 =>
    exact ensures_bind_fitsCode (fun _ => ensures_pair_fitsCode fun _ _ => Or.inl rfl) _
  case h_18 => exact ensures_bind_fitsCode (fun _ => ensures_ok (Or.inl rfl)) _

/-- The command of a token reaches beyond the field only by its code, behind a caret. -/
theorem ensures_ofToken_labelCode
    (token : Token) :
    Ensures
      (fun command => command.labelCode? = none ∨
        token.lead = .caret ∧ command.labelCode? = some token.code)
      (ofToken token) := by
  intro command found
  rw [ofToken] at found
  split at found
  · rename_i caret
    rcases ensures_read_fitsCode token.code token.params command found with ofField | ofLabel
    · exact Or.inl ofField
    · exact Or.inr ⟨caret, ofLabel⟩
  · cases found
    exact Or.inl rfl

end Command

/-! ## Two runs of the same commands -/

namespace LabelState

/-- A change of the state that all commands keep up is kept up by a run of them. -/
theorem foldlM_applyToken_change
    {change : LabelState → LabelState}
    {tokens : List Token}
    (kept : ∀ token ∈ tokens, ∀ state : LabelState,
      (change state).applyToken token = (state.applyToken token).map change)
    (state : LabelState) :
    tokens.foldlM applyToken (change state) = (tokens.foldlM applyToken state).map change := by
  induction tokens generalizing state with
  | nil =>
      rfl
  | cons token tokens ih =>
      obtain ⟨first, later⟩ := List.forall_mem_cons.mp kept
      rw [List.foldlM_cons, List.foldlM_cons, first state]
      cases state.applyToken token with
      | error fault =>
          rfl
      | ok after =>
          exact ih later after

/-- A command that fails or changes the state alike does so as a token. -/
theorem applyToken_change
    {change : LabelState → LabelState}
    {token : Token}
    {state : LabelState}
    (kept : ∀ command, Command.ofToken token = .ok command →
      (change state).apply command = (state.apply command).map change) :
    (change state).applyToken token = (state.applyToken token).map change := by
  rw [applyToken, applyToken]
  cases found : Command.ofToken token with
  | error fault =>
      rfl
  | ok command =>
      exact kept command found

end LabelState

section Runs

variable {State Item Fault : Type} {step : State → Item → Except Fault State}

/-- A run over two lists that succeeds goes through the state between them. -/
theorem foldlM_append_eq_ok_iff
    {front behind : List Item}
    {before after : State} :
    (front ++ behind).foldlM step before = .ok after ↔
      ∃ between, front.foldlM step before = .ok between ∧
        behind.foldlM step between = .ok after := by
  rw [List.foldlM_append]
  cases first : front.foldlM step before with
  | error fault =>
      constructor
      · intro impossible
        cases impossible
      · rintro ⟨between, impossible, -⟩
        cases impossible
  | ok between =>
      constructor
      · intro rest
        exact ⟨between, rfl, rest⟩
      · rintro ⟨other, same, rest⟩
        cases same
        exact rest

end Runs

end LabelPress.Markup
