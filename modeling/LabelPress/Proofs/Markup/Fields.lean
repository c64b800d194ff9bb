import LabelPress.Proofs.Markup.Steps

/-!
# Fields do not depend on each other

A field is a run of commands from the opening of a label, or from the end of the field before, up to
its own end.  Apart from the settings of the label, which are the commands with one of
`Token.settingCodes`, its commands act on the open field only.  Its end puts at most one element
behind those of the label and leaves nothing of the field.

The main statement (`readText_fields_isolated`) says what follows if a field is taken out of a
label: the other elements stay, in their order, and so do the sizes of the label.  The end of a
field that stands behind another one, or where the label ends, makes no difference.
-/

namespace LabelPress.Markup

/-! ## Tokens of a field -/

namespace Token

/-- The codes of the commands that hold for later fields or for the label as a whole. -/
def settingCodes : List (List Char) :=
  [['L', 'H'], ['L', 'R'], ['P', 'W'], ['L', 'L'], ['P', 'O'], ['C', 'F'], ['F', 'W'], ['B', 'Y']]

/-- Whether a token is a setting of the label. -/
def isSetting (token : Token) : Bool :=
  token.lead = .caret && settingCodes.contains token.code

/-- Whether a token ends a field. -/
def endsField (token : Token) : Bool :=
  token.lead = .caret && token.code = ['F', 'S']

/-- Whether a token stands inside a field that has no settings. -/
def inField (token : Token) : Bool :=
  token.inLabel && !token.isSetting && !token.endsField

variable {token : Token}

theorem eq_of_endsField
    (ends : token.endsField = true) :
    token = ⟨.caret, ['F', 'S'], token.params⟩ := by
  obtain ⟨lead, code, params⟩ := token
  obtain ⟨caret, endCode⟩ := Bool.and_eq_true_iff.mp ends
  cases of_decide_eq_true caret
  cases of_decide_eq_true endCode
  rfl

theorem inLabel_of_endsField
    (ends : token.endsField = true) :
    token.inLabel = true := by
  rw [eq_of_endsField ends]
  rfl

theorem inLabel_of_inField
    (inside : token.inField = true) :
    token.inLabel = true := by
  rw [inField, Bool.and_eq_true, Bool.and_eq_true] at inside
  exact inside.1.1

end Token

theorem Command.mem_of_labelCode?
    {command : Command}
    {code : List Char}
    (reaches : command.labelCode? = some code) :
    Token.settingCodes.contains code = true ∨ code = ['F', 'S'] := by
  cases command <;> cases reaches
  case endField => exact Or.inr rfl
  all_goals exact Or.inl rfl

theorem Command.ensures_ofToken_inField
    {token : Token}
    (inside : token.inField = true) :
    Ensures (fun command => command.labelCode? = none) (ofToken token) := by
  intro command found
  rcases ensures_ofToken_labelCode token command found with ofField | ⟨caret, ofLabel⟩
  · exact ofField
  · rw [Token.inField, Bool.and_eq_true, Bool.and_eq_true, Token.isSetting, Token.endsField,
      caret] at inside
    rcases mem_of_labelCode? ofLabel with setting | ends
    · rw [setting] at inside
      cases inside.1.2
    · rw [ends] at inside
      cases inside.2

/-! ## Runs of a field -/

namespace LabelState

/-- Two states agree in all but the open field. -/
structure AgreesButField (before after : LabelState) : Prop where
  label : after.label = before.label
  settings : after.settings = before.settings

theorem AgreesButField.refl (state : LabelState) : AgreesButField state state :=
  ⟨rfl, rfl⟩

theorem AgreesButField.trans
    {before between after : LabelState}
    (first : AgreesButField before between)
    (second : AgreesButField between after) :
    AgreesButField before after :=
  ⟨second.label.trans first.label, second.settings.trans first.settings⟩

theorem ensures_apply_agreesButField
    (state : LabelState)
    {command : Command}
    (ofField : command.labelCode? = none) :
    Ensures (AgreesButField state) (state.apply command) := by
  cases command with
  | data text =>
      exact (ensures_true _).map fun _ _ => ⟨rfl, rfl⟩
  | font _ | origin _ _ _ | reverse | escapes _ | block _ | request _ | nothing =>
      exact ensures_ok ⟨rfl, rfl⟩
  | _ =>
      cases ofField

theorem ensures_applyToken_inField
    (state : LabelState)
    {token : Token}
    (inside : token.inField = true) :
    Ensures (AgreesButField state) (state.applyToken token) := by
  rw [applyToken]
  cases found : Command.ofToken token with
  | error fault =>
      exact ensures_error fault
  | ok command =>
      apply state.ensures_apply_agreesButField
      exact Command.ensures_ofToken_inField inside command found

/-- The commands of a field leave the label and its settings as they are. -/
theorem ensures_foldlM_inField
    (state : LabelState)
    {field : List Token}
    (inside : ∀ token ∈ field, token.inField = true) :
    Ensures (AgreesButField state) (field.foldlM applyToken state) := by
  induction field generalizing state with
  | nil =>
      exact ensures_ok (.refl state)
  | cons token field ih =>
      obtain ⟨first, later⟩ := List.forall_mem_cons.mp inside
      rw [List.foldlM_cons]
      refine (state.ensures_applyToken_inField first).bind ?_
      intro between agrees after run
      exact agrees.trans (ih between later after run)

/-! ## The end of a field -/

theorem applyToken_of_endsField
    (state : LabelState)
    {stop : Token}
    (ends : stop.endsField = true) :
    state.applyToken stop = .ok state.endField := by
  rw [Token.eq_of_endsField ends]
  rfl

/-- The label with more elements behind its own. -/
def emit
    (state : LabelState)
    (made : Array Element) : LabelState :=
  { state with label := { state.label with elements := state.label.elements ++ made } }

@[simp]
theorem emit_empty (state : LabelState) : state.emit #[] = state := by
  simp [emit]

/-- The end of a field puts at most one element behind the others and forgets the field. -/
theorem endField_eq_emit (state : LabelState) :
    state.endField =
      { state with field := {} }.emit (state.field.element? state.settings).toList.toArray := by
  rw [endField]
  cases state.field.element? state.settings with
  | none =>
      exact (emit_empty _).symm
  | some element =>
      simp [emit]

@[simp]
theorem field_endField (state : LabelState) : state.endField.field = {} := by
  rw [endField_eq_emit]
  rfl

/-- A field of which nothing is known yet prints nothing. -/
theorem endField_of_fresh
    {state : LabelState}
    (fresh : state.field = {}) :
    state.endField = state := by
  obtain ⟨label, settings, field⟩ := state
  cases fresh
  rfl

theorem element?_of_plain
    {field : Field}
    {settings : Settings}
    (noData : field.data = none)
    (noPrinting : field.printing = none) :
    field.element? settings = none := by
  rw [Field.element?, Field.content?, noData, noPrinting]
  rfl

/-- The end of a label ends the open field. -/
theorem finish_eq (state : LabelState) : state.finish = state.endField.label := by
  rw [finish]
  split
  · rfl
  · rename_i idle
    rw [Bool.not_eq_true, Bool.or_eq_false_iff, Option.isSome_eq_false_iff,
      Option.isSome_eq_false_iff, Option.isNone_iff_eq_none, Option.isNone_iff_eq_none] at idle
    rw [endField, element?_of_plain idle.1 idle.2]

theorem finish_of_fresh
    {state : LabelState}
    (fresh : state.field = {}) :
    state.finish = state.label := by
  rw [finish_eq, endField_of_fresh fresh]

theorem finish_endField (state : LabelState) : state.endField.finish = state.finish := by
  rw [finish_of_fresh state.field_endField, finish_eq]

/-- A whole field puts at most one element behind the others, and changes nothing else. -/
theorem exists_emit_of_field
    {state after : LabelState}
    {field : List Token}
    {stop : Token}
    (fresh : state.field = {})
    (inside : ∀ token ∈ field, token.inField = true)
    (ends : stop.endsField = true)
    (run : (field ++ [stop]).foldlM applyToken state = .ok after) :
    ∃ made : Array Element, made.size ≤ 1 ∧ after = state.emit made := by
  obtain ⟨between, fieldRun, stopRun⟩ := foldlM_append_eq_ok_iff.mp run
  obtain ⟨sameLabel, sameSettings⟩ := state.ensures_foldlM_inField inside between fieldRun
  have ended : after = between.endField := by
    have stopped : [stop].foldlM applyToken between = .ok between.endField := by
      rw [List.foldlM_cons, between.applyToken_of_endsField ends]
      rfl
    rw [stopped] at stopRun
    exact (Except.ok.inj stopRun).symm
  -- The field was empty before, so that clearing it leads back to the state in front of the field.
  have cleared : { between with field := {} } = state := by
    obtain ⟨label, settings, field⟩ := state
    cases fresh
    cases sameLabel
    cases sameSettings
    rfl
  refine ⟨(between.field.element? between.settings).toList.toArray, ?_, ?_⟩
  · cases between.field.element? between.settings <;> simp
  · rw [ended, endField_eq_emit, cleared]

end LabelState

/-! ## Elements in front -/

/-- The label with more elements in front of its own. -/
def LabelState.prepend
    (front : Array Element)
    (state : LabelState) : LabelState :=
  { state with label := { state.label with elements := front ++ state.label.elements } }

namespace LabelState

variable (front : Array Element)

theorem endField_prepend (state : LabelState) :
    (state.prepend front).endField = state.endField.prepend front := by
  rw [endField_eq_emit, endField_eq_emit]
  simp [prepend, emit]

/-- No command looks at the elements that are there. -/
theorem apply_prepend
    (state : LabelState)
    (command : Command) :
    (state.prepend front).apply command = (state.apply command).map (prepend front) := by
  cases command with
  | data text =>
      rw [apply, apply]
      show (state.fieldData text).map _ = _
      cases state.fieldData text <;> rfl
  | endField =>
      exact congrArg Except.ok (state.endField_prepend front)
  | _ =>
      rfl

theorem foldlM_prepend
    (state : LabelState)
    (tokens : List Token) :
    tokens.foldlM applyToken (state.prepend front) =
      (tokens.foldlM applyToken state).map (prepend front) := by
  apply foldlM_applyToken_change
  intro token _ state
  apply applyToken_change
  intro command _
  exact state.apply_prepend front command

theorem finish_prepend (state : LabelState) :
    (state.prepend front).finish =
      { state.finish with elements := front ++ state.finish.elements } := by
  rw [finish_eq, finish_eq, endField_prepend]
  rfl

/-- The commands behind a field make the same of the label, whatever elements are there. -/
theorem foldlM_emit
    {state after : LabelState}
    {tokens : List Token}
    (made : Array Element)
    (run : tokens.foldlM applyToken (state.emit made) = .ok after) :
    ∃ (later : Array Element) (other : LabelState),
      after.finish.elements = state.label.elements ++ made ++ later ∧
        tokens.foldlM applyToken state = .ok other ∧
          other.finish = { after.finish with elements := state.label.elements ++ later } := by
  -- Both runs start from the state without elements, behind some that are put in front.
  let bare : LabelState := { state with label := { state.label with elements := #[] } }
  have whole : state.emit made = bare.prepend (state.label.elements ++ made) := by
    simp [emit, prepend, bare]
  have less : state = bare.prepend state.label.elements := by
    simp [prepend, bare]
  rw [whole, foldlM_prepend] at run
  cases bareRun : tokens.foldlM applyToken bare with
  | error fault =>
      rw [bareRun] at run
      cases run
  | ok last =>
      rw [bareRun] at run
      cases run
      refine ⟨last.finish.elements, last.prepend state.label.elements, ?_, ?_, ?_⟩
      · rw [finish_prepend]
      · rw [less, foldlM_prepend, bareRun]
        rfl
      · rw [finish_prepend, finish_prepend]

end LabelState

/-! ## A label without one of its fields -/

section Labels

variable {before field behind : List Token} {stop : Token}

theorem readSegment_eq_ok_iff
    {tokens : List Token}
    {label : Label} :
    readSegment tokens = .ok label ↔
      ∃ state, tokens.foldlM LabelState.applyToken {} = .ok state ∧ state.finish = label := by
  rw [readSegment]
  cases tokens.foldlM LabelState.applyToken {} with
  | error fault =>
      constructor
      · intro impossible
        cases impossible
      · rintro ⟨state, impossible, -⟩
        cases impossible
  | ok state =>
      constructor
      · intro finished
        exact ⟨state, rfl, Except.ok.inj finished⟩
      · rintro ⟨other, same, rfl⟩
        cases same
        rfl

theorem field_eq_of_boundary
    {start state : LabelState}
    (boundary : ∀ last ∈ before.getLast?, last.endsField = true)
    (fresh : start.field = {})
    (run : before.foldlM LabelState.applyToken start = .ok state) :
    state.field = {} := by
  cases isLast : before.getLast? with
  | none =>
      rw [List.getLast?_eq_none_iff.mp isLast] at run
      cases run
      exact fresh
  | some last =>
      obtain ⟨front, rfl⟩ := List.getLast?_eq_some_iff.mp isLast
      obtain ⟨between, -, lastRun⟩ := foldlM_append_eq_ok_iff.mp run
      rw [List.foldlM_cons, between.applyToken_of_endsField (boundary last isLast)] at lastRun
      cases lastRun
      exact between.field_endField

/-- A field between two boundaries makes one run of elements, which is all that goes with it. -/
theorem readSegment_of_field
    {label : Label}
    (boundary : ∀ last ∈ before.getLast?, last.endsField = true)
    (inside : ∀ token ∈ field, token.inField = true)
    (ends : stop.endsField = true)
    (read : readSegment (before ++ (field ++ [stop]) ++ behind) = .ok label) :
    ∃ (opened : Label) (made later : Array Element),
      readSegment before = .ok opened ∧ made.size ≤ 1 ∧
        readSegment (before ++ (field ++ [stop])) =
          .ok { opened with elements := opened.elements ++ made } ∧
        label.elements = opened.elements ++ made ++ later ∧
        readSegment (before ++ behind) =
          .ok { label with elements := opened.elements ++ later } := by
  obtain ⟨final, run, rfl⟩ := readSegment_eq_ok_iff.mp read
  obtain ⟨closed, frontRun, behindRun⟩ := foldlM_append_eq_ok_iff.mp run
  obtain ⟨state, beforeRun, fieldRun⟩ := foldlM_append_eq_ok_iff.mp frontRun
  have fresh := field_eq_of_boundary boundary rfl beforeRun
  obtain ⟨made, few, rfl⟩ := LabelState.exists_emit_of_field fresh inside ends fieldRun
  obtain ⟨later, other, elements, otherRun, finished⟩ := LabelState.foldlM_emit made behindRun
  refine ⟨state.label, made, later, ?_, few, ?_, elements, ?_⟩
  · exact readSegment_eq_ok_iff.mpr ⟨state, beforeRun, LabelState.finish_of_fresh fresh⟩
  · have freshBehind : (state.emit made).field = {} := fresh
    exact readSegment_eq_ok_iff.mpr ⟨_, frontRun, LabelState.finish_of_fresh freshBehind⟩
  · exact readSegment_eq_ok_iff.mpr
      ⟨other, foldlM_append_eq_ok_iff.mpr ⟨state, beforeRun, otherRun⟩, finished⟩

end Labels

/-! ## Markup without one of its fields -/

/-- A label is open behind these tokens, and none of its fields has begun. -/
def AtBoundary (tokens : List Token) : Prop :=
  ∃ front opening inside, tokens = front ++ opening :: inside ∧ opening.opensLabel = true ∧
    (∀ token ∈ inside, token.inLabel = true) ∧
      ∀ last ∈ inside.getLast?, last.endsField = true

theorem segments_append_of_inside
    {inside : List Token}
    (allInside : ∀ token ∈ inside, token.inLabel = true)
    (behind : List Token) :
    segments (inside ++ behind) = segments behind := by
  induction inside with
  | nil =>
      rfl
  | cons token inside ih =>
      obtain ⟨first, later⟩ := List.forall_mem_cons.mp allInside
      rw [List.cons_append, segments_cons_of_inside _ first, ih later]

/-- The label that is open behind some tokens is read on its own. -/
theorem readTokens_of_open_eq_ok_iff
    {front inside behind : List Token}
    {opening : Token}
    {labels : List Label}
    (opens : opening.opensLabel = true)
    (allInside : ∀ token ∈ inside, token.inLabel = true) :
    readTokens (front ++ opening :: (inside ++ behind)) = .ok labels ↔
      ∃ early label late, readTokens front = .ok early ∧
        readSegment (inside ++ behind.takeWhile Token.inLabel) = .ok label ∧
          (segments behind).mapM readSegment = .ok late ∧ labels = early ++ label :: late := by
  rw [readTokens_eq_mapM, segments_append_of_opens front _ opens,
    segments_cons_of_opens _ opens, List.takeWhile_append_of_pos allInside,
    segments_append_of_inside allInside, List.mapM_append, List.mapM_cons, readTokens_eq_mapM]
  constructor
  · intro read
    cases frontRead : (segments front).mapM readSegment with
    | error fault =>
        rw [frontRead] at read
        cases read
    | ok early =>
        cases labelRead : readSegment (inside ++ behind.takeWhile Token.inLabel) with
        | error fault =>
            rw [frontRead, labelRead] at read
            cases read
        | ok label =>
            cases lateRead : (segments behind).mapM readSegment with
            | error fault =>
                rw [frontRead, labelRead, lateRead] at read
                cases read
            | ok late =>
                rw [frontRead, labelRead, lateRead] at read
                exact ⟨early, label, late, rfl, rfl, rfl, (Except.ok.inj read).symm⟩
  · rintro ⟨early, label, late, frontRead, labelRead, lateRead, rfl⟩
    rw [frontRead, labelRead, lateRead]
    rfl

theorem readTokens_of_open_eq_ok
    {front inside : List Token}
    {opening : Token}
    {early : List Label}
    {label : Label}
    (opens : opening.opensLabel = true)
    (allInside : ∀ token ∈ inside, token.inLabel = true)
    (frontRead : readTokens front = .ok early)
    (labelRead : readSegment inside = .ok label) :
    readTokens (front ++ opening :: inside) = .ok (early ++ [label]) := by
  rw [← List.append_nil inside] at labelRead ⊢
  exact (readTokens_of_open_eq_ok_iff opens allInside).mpr
    ⟨early, label, [], frontRead, labelRead, rfl, rfl⟩

/-! ## Ends of fields that make no difference -/

/-- The open label, if there is one, with its field ended. -/
def Reading.endField (reading : Reading) : Reading :=
  { reading with current := reading.current.map LabelState.endField }

namespace Reading

variable {stop : Token}

theorem step_of_endsField
    (reading : Reading)
    (ends : stop.endsField = true) :
    reading.step stop = .ok reading.endField := by
  obtain ⟨finished, _ | state⟩ := reading
  all_goals
    rw [Token.eq_of_endsField ends]
    rfl

theorem endField_endField (reading : Reading) :
    reading.endField.endField = reading.endField := by
  obtain ⟨finished, _ | state⟩ := reading
  · rfl
  · have twice : state.endField.endField = state.endField :=
      LabelState.endField_of_fresh state.field_endField
    rw [endField, endField, Option.map_some, Option.map_some, twice]

theorem close_endField (reading : Reading) : reading.endField.close = reading.close := by
  obtain ⟨finished, _ | state⟩ := reading
  · rfl
  · show Reading.mk (finished.push state.endField.finish) none = _
    rw [LabelState.finish_endField]
    rfl

theorem labelsBehind_of_endsField
    (reading : Reading)
    (tokens : List Token)
    (ends : stop.endsField = true) :
    reading.labelsBehind (stop :: tokens) = reading.endField.labelsBehind tokens :=
  labelsBehind_cons tokens (reading.step_of_endsField ends)

theorem labelsBehind_endField
    (reading : Reading)
    {tokens : List Token}
    (outside : ∀ next ∈ tokens.head?, next.inLabel = false) :
    reading.endField.labelsBehind tokens = reading.labelsBehind tokens := by
  cases tokens with
  | nil =>
      show Except.ok reading.endField.close.finished.toList = _
      rw [close_endField]
      rfl
  | cons next tokens =>
      have ends : next.inLabel = false := outside next rfl
      rw [← labelsBehind_close _ tokens ends, close_endField, labelsBehind_close _ tokens ends]

end Reading

theorem readTokens_append
    (front behind : List Token) :
    readTokens (front ++ behind) =
      front.foldlM Reading.step {} >>= fun reading => reading.labelsBehind behind := by
  rw [readTokens_eq_labelsBehind, Reading.labelsBehind, List.foldlM_append]
  cases front.foldlM Reading.step {} <;> rfl

/-- The end of a field behind another one, or where the label ends, makes no difference. -/
theorem readTokens_insert_end
    {front behind : List Token}
    {stop : Token}
    (ends : stop.endsField = true)
    (idle : (∃ last ∈ front.getLast?, last.endsField = true) ∨
      ∀ next ∈ behind.head?, next.inLabel = false) :
    readTokens (front ++ stop :: behind) = readTokens (front ++ behind) := by
  rcases idle with ⟨last, isLast, lastEnds⟩ | outside
  · obtain ⟨before, rfl⟩ := List.getLast?_eq_some_iff.mp isLast
    rw [List.append_assoc, List.append_assoc, readTokens_append, readTokens_append]
    congr 1
    funext reading
    show reading.labelsBehind (last :: stop :: behind) = reading.labelsBehind (last :: behind)
    rw [reading.labelsBehind_of_endsField _ lastEnds, reading.labelsBehind_of_endsField _ lastEnds,
      Reading.labelsBehind_of_endsField _ _ ends, Reading.endField_endField]
  · rw [readTokens_append, readTokens_append]
    congr 1
    funext reading
    rw [reading.labelsBehind_of_endsField _ ends, reading.labelsBehind_endField outside]

/-! ## Fields of texts -/

/--
Fields are isolated by their ends.  Let `rest` be a text with the commands of `whole` but for a run
of commands and the end of a field behind them.  If the run is a whole field without settings, and
`whole` can be read, then so can `rest`: there are the same labels, and the label of the field has
the same sizes and the same elements in their order, less the at most one element that the field
put behind those in front of it.  If the run is empty and stands behind the end of a field, or where
the label ends, then `rest` is read as `whole` is.
-/
theorem readText_fields_isolated
    {whole rest : List Char}
    {front field behind : List Token}
    {stop : Token}
    (wholeTokens : (Token.scan whole).toList = front ++ (field ++ [stop]) ++ behind)
    (restTokens : (Token.scan rest).toList = front ++ behind)
    (ends : stop.endsField = true) :
    (∀ labels, AtBoundary front → (∀ token ∈ field, token.inField = true) →
      readText whole = .ok labels →
        ∃ (early late : List Label) (opened label : Label) (made later : Array Element),
          labels = early ++ label :: late ∧ made.size ≤ 1 ∧
            readTokens front = .ok (early ++ [opened]) ∧
            readTokens (front ++ (field ++ [stop])) =
              .ok (early ++ [{ opened with elements := opened.elements ++ made }]) ∧
            label.elements = opened.elements ++ made ++ later ∧
            readText rest =
              .ok (early ++ { label with elements := opened.elements ++ later } :: late)) ∧
      (field = [] → (∃ last ∈ front.getLast?, last.endsField = true) ∨
          (∀ next ∈ behind.head?, next.inLabel = false) →
        readText whole = readText rest) := by
  rw [readText, readText, wholeTokens, restTokens]
  constructor
  · rintro labels ⟨before, opening, inside, rfl, opens, allInside, boundary⟩ inField read
    -- The same label is open with the field and without it, so that all else is read alike.
    have allBetween : ∀ token ∈ inside ++ (field ++ [stop]), token.inLabel = true := by
      simp only [List.mem_append, List.mem_singleton]
      rintro token (member | member | rfl)
      · exact allInside token member
      · exact Token.inLabel_of_inField (inField token member)
      · exact Token.inLabel_of_endsField ends
    have shape : ∀ more, before ++ opening :: inside ++ more =
        before ++ opening :: (inside ++ more) := by simp
    rw [List.append_assoc, shape, ← List.append_assoc inside] at read
    obtain ⟨early, label, late, frontRead, labelRead, lateRead, rfl⟩ :=
      (readTokens_of_open_eq_ok_iff opens allBetween).mp read
    obtain ⟨opened, made, later, openedRead, few, closedRead, elements, restRead⟩ :=
      readSegment_of_field boundary inField ends labelRead
    refine ⟨early, late, opened, label, made, later, rfl, few, ?_, ?_, elements, ?_⟩
    · exact readTokens_of_open_eq_ok opens allInside frontRead openedRead
    · rw [shape]
      exact readTokens_of_open_eq_ok opens allBetween frontRead closedRead
    · rw [shape]
      exact (readTokens_of_open_eq_ok_iff opens allInside).mpr
        ⟨early, _, late, frontRead, restRead, lateRead, rfl⟩
  · rintro rfl idle
    rw [List.append_assoc]
    exact readTokens_insert_end ends idle

/-- The first of two fields is taken out, in a label whose home is set between fields. -/
theorem readText_without_first_field :
    let whole := "^XA^LH5,7^FS^FO1,2^FDa^FS^FDb".toList
    let rest := "^XA^LH5,7^FS^FDb".toList
    let front : List Token :=
      [⟨.caret, ['X', 'A'], []⟩, ⟨.caret, ['L', 'H'], ['5', ',', '7']⟩, ⟨.caret, ['F', 'S'], []⟩]
    let field : List Token :=
      [⟨.caret, ['F', 'O'], ['1', ',', '2']⟩, ⟨.caret, ['F', 'D'], ['a']⟩]
    let behind : List Token := [⟨.caret, ['F', 'D'], ['b']⟩]
    let stop : Token := ⟨.caret, ['F', 'S'], []⟩
    let labels : List Label :=
      [{ elements := #[⟨⟨6, 9, .topLeft⟩, false, .text "a" default none⟩,
        ⟨⟨5, 7, .topLeft⟩, false, .text "b" default none⟩] }]
    (Token.scan whole).toList = front ++ (field ++ [stop]) ++ behind ∧
      (Token.scan rest).toList = front ++ behind ∧ stop.endsField = true ∧
      AtBoundary front ∧ (∀ token ∈ field, token.inField = true) ∧
      readText whole = .ok labels ∧
        ∃ (early late : List Label) (opened label : Label) (made later : Array Element),
          labels = early ++ label :: late ∧ made.size ≤ 1 ∧
            readTokens front = .ok (early ++ [opened]) ∧
            readTokens (front ++ (field ++ [stop])) =
              .ok (early ++ [{ opened with elements := opened.elements ++ made }]) ∧
            label.elements = opened.elements ++ made ++ later ∧
            readText rest =
              .ok (early ++ { label with elements := opened.elements ++ later } :: late) := by
  intro whole rest front field behind stop labels
  have wholeTokens : (Token.scan whole).toList = front ++ (field ++ [stop]) ++ behind := by
    with_unfolding_all rfl
  have restTokens : (Token.scan rest).toList = front ++ behind := by
    with_unfolding_all rfl
  have boundary : AtBoundary front := by
    refine ⟨[], ⟨.caret, ['X', 'A'], []⟩,
      [⟨.caret, ['L', 'H'], ['5', ',', '7']⟩, ⟨.caret, ['F', 'S'], []⟩], rfl, rfl, ?_, ?_⟩
    · simp [Token.inLabel, Token.opensLabel, Token.closesLabel]
    · simp [Token.endsField]
  have inField : ∀ token ∈ field, token.inField = true := by
    simp only [field, List.forall_mem_cons]
    exact ⟨rfl, rfl, by simp⟩
  have read : readText whole = .ok labels := by
    rw [readText, wholeTokens]
    with_unfolding_all rfl
  exact ⟨wholeTokens, restTokens, rfl, boundary, inField, read,
    (readText_fields_isolated wholeTokens restTokens rfl).1 labels boundary inField read⟩

end LabelPress.Markup
