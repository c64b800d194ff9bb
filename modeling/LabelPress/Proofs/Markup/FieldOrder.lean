import LabelPress.Proofs.Markup.Fields

/-!
# The order of commands within a field

A command of a field writes one slot of the field (`Slot`), which its code tells.  It leaves all
other slots alone (`ensures_apply_writes`), and what it writes depends on the settings of the label
only, and for data on the announcement of escapes (`apply_alike`).  So two commands may change
places unless they write the same slot, or one of them announces escapes and the other gives data
(`commute_of_independent`).

A run may be put into another order as long as commands that do not commute stay in order: the first
command is moved to the front, past commands with which it commutes, and so on with the rest
(`foldlM_reorder`).  The main statement (`field_reorders`) says this of the commands of a field, for
every state of a label.
-/

namespace LabelPress.Markup

/-! ## Runs in another order -/

section Runs

variable {State Item Fault : Type} {step : State → Item → Except Fault State}

theorem foldlM_cons_eq_ok_iff
    {item : Item}
    {items : List Item}
    {before after : State} :
    (item :: items).foldlM step before = .ok after ↔
      ∃ between, step before item = .ok between ∧ items.foldlM step between = .ok after := by
  have first : [item].foldlM step before = step before item := by
    rw [List.foldlM_cons]
    exact bind_pure _
  rw [← List.singleton_append, foldlM_append_eq_ok_iff, first]

theorem foldlM_pair_eq_ok_iff
    {first second : Item}
    {before after : State} :
    [first, second].foldlM step before = .ok after ↔
      ∃ between, step before first = .ok between ∧ step between second = .ok after := by
  rw [foldlM_cons_eq_ok_iff]
  refine exists_congr fun between => and_congr_right fun _ => ?_
  rw [foldlM_cons_eq_ok_iff]
  constructor
  · rintro ⟨last, applied, done⟩
    cases done
    exact applied
  · intro applied
    exact ⟨after, applied, rfl⟩

theorem map_eq_ok_iff
    {Result Other : Type}
    {outcome : Except Fault Result}
    {change : Result → Other}
    {after : Other} :
    outcome.map change = .ok after ↔ ∃ before, outcome = .ok before ∧ change before = after := by
  cases outcome <;> simp [Except.map]

/-- Two steps succeed in either order or in none, and then lead to the same state. -/
def Commute
    (step : State → Item → Except Fault State)
    (first second : Item) : Prop :=
  ∀ before after,
    [first, second].foldlM step before = .ok after ↔
      [second, first].foldlM step before = .ok after

/-- Two steps at the beginning of a run change places if they commute. -/
theorem Commute.foldlM_swap
    {first second : Item}
    (commute : Commute step first second)
    (items : List Item)
    (before after : State) :
    (first :: second :: items).foldlM step before = .ok after ↔
      (second :: first :: items).foldlM step before = .ok after := by
  show ([first, second] ++ items).foldlM step before = .ok after ↔
    ([second, first] ++ items).foldlM step before = .ok after
  rw [foldlM_append_eq_ok_iff, foldlM_append_eq_ok_iff]
  exact exists_congr fun between => and_congr_left fun _ => commute before between

/-- An item moves to the front, past items with which it commutes. -/
theorem foldlM_move_front
    {item : Item}
    {front : List Item}
    (commute : ∀ other ∈ front, Commute step other item)
    (behind : List Item)
    (before after : State) :
    (front ++ item :: behind).foldlM step before = .ok after ↔
      (item :: (front ++ behind)).foldlM step before = .ok after := by
  induction front generalizing before with
  | nil =>
      rfl
  | cons other front ih =>
      obtain ⟨first, later⟩ := List.forall_mem_cons.mp commute
      calc (other :: (front ++ item :: behind)).foldlM step before = .ok after
          ↔ (other :: item :: (front ++ behind)).foldlM step before = .ok after := by
            rw [foldlM_cons_eq_ok_iff, foldlM_cons_eq_ok_iff]
            exact exists_congr fun between => and_congr_right fun _ => ih later between
        _ ↔ (item :: other :: (front ++ behind)).foldlM step before = .ok after :=
            first.foldlM_swap (front ++ behind) before after

variable {Group : Type} {inGroup : Group → Item → Bool}

/-- The first of an item's group in a list is this item, if the group opens with it. -/
theorem not_inGroup_of_front
    {item : Item}
    {items front behind : List Item}
    (fresh : item ∉ front)
    (kept : ∀ group, (item :: items).filter (inGroup group) =
      (front ++ item :: behind).filter (inGroup group))
    {group : Group}
    (ofGroup : inGroup group item = true) :
    front.filter (inGroup group) = [] := by
  have same := kept group
  rw [List.filter_cons_of_pos ofGroup, List.filter_append] at same
  cases found : front.filter (inGroup group) with
  | nil =>
      rfl
  | cons other others =>
      rw [found] at same
      have first : item = other := (List.cons.inj same).1
      have member : other ∈ front.filter (inGroup group) := found ▸ List.mem_cons_self
      exact absurd (first ▸ (List.mem_filter.mp member).1) fresh

/--
A run may be put into another order that keeps the order within each group, if items that are in
no group together commute.
-/
theorem foldlM_reorder
    (inGroup : Group → Item → Bool)
    {items others : List Item}
    (commute : ∀ first ∈ items, ∀ second ∈ items,
      (∀ group, inGroup group first = true → inGroup group second = false) →
        Commute step first second)
    (perm : items.Perm others)
    (kept : ∀ group, items.filter (inGroup group) = others.filter (inGroup group))
    (before after : State) :
    items.foldlM step before = .ok after ↔ others.foldlM step before = .ok after := by
  -- The other order is cut at the first item of this one, which moves to the front there.
  induction items generalizing others before with
  | nil =>
      rw [perm.nil_eq]
  | cons item items ih =>
      obtain ⟨front, behind, rfl, fresh⟩ :=
        List.eq_append_cons_of_mem (perm.mem_iff.mp List.mem_cons_self)
      have lone : ∀ group, inGroup group item = true → front.filter (inGroup group) = [] :=
        fun group ofGroup => not_inGroup_of_front fresh kept ofGroup
      have toFront : ∀ other ∈ front, Commute step other item := by
        intro other member
        refine commute other ?_ item List.mem_cons_self ?_
        · exact perm.mem_iff.mpr (List.mem_append_left _ member)
        · intro group otherOfGroup
          rw [← Bool.not_eq_true]
          intro ofGroup
          have member := List.mem_filter.mpr ⟨member, otherOfGroup⟩
          rw [lone group ofGroup] at member
          cases member
      have restKept : ∀ group, items.filter (inGroup group) =
          (front ++ behind).filter (inGroup group) := by
        intro group
        have same := kept group
        rw [List.filter_append] at same ⊢
        by_cases ofGroup : inGroup group item = true
        · rw [List.filter_cons_of_pos ofGroup, List.filter_cons_of_pos ofGroup,
            lone group ofGroup] at same
          rw [lone group ofGroup]
          exact (List.cons.inj same).2
        · rwa [List.filter_cons_of_neg ofGroup, List.filter_cons_of_neg ofGroup] at same
      have restCommute : ∀ first ∈ items, ∀ second ∈ items,
          (∀ group, inGroup group first = true → inGroup group second = false) →
            Commute step first second := fun first firstMember second secondMember =>
        commute first (List.mem_cons_of_mem item firstMember) second
          (List.mem_cons_of_mem item secondMember)
      have restPerm : items.Perm (front ++ behind) := (perm.trans List.perm_middle).cons_inv
      rw [foldlM_move_front toFront, foldlM_cons_eq_ok_iff, foldlM_cons_eq_ok_iff]
      exact exists_congr fun between => and_congr_right fun _ =>
        ih restCommute restPerm restKept between

end Runs

/-! ## Slots of a field -/

/-- What a command of a field writes. -/
inductive Slot where
  | origin
  | font
  | data
  | indicator
  | reverse
  | block
  | printing
  deriving DecidableEq

/-- The codes of the commands that write a slot. -/
def Slot.codes : Slot → List (List Char)
  | .origin => [['F', 'O'], ['F', 'T']]
  | .font => [['A']]
  | .data => [['F', 'D'], ['F', 'V']]
  | .indicator => [['F', 'H']]
  | .reverse => [['F', 'R']]
  | .block => [['F', 'B']]
  | .printing =>
    [['B', 'C'], ['B', 'E'], ['B', 'Q'], ['G', 'B'], ['G', 'C'], ['G', 'E'], ['G', 'F']]

/-- Whether the command of a token writes a slot. -/
def Token.writes (token : Token) (slot : Slot) : Bool :=
  token.lead = .caret && slot.codes.contains token.code

/-- Slots that may be written in either order: data are read as escapes are announced before. -/
def Slot.Independent (first second : Slot) : Prop :=
  first ≠ second ∧ ¬ (first = .indicator ∧ second = .data) ∧
    ¬ (first = .data ∧ second = .indicator)

theorem Slot.Independent.symm {first second : Slot} (independent : first.Independent second) :
    second.Independent first := by
  obtain ⟨apart, forward, backward⟩ := independent
  exact ⟨apart.symm, fun both => backward both.symm, fun both => forward both.symm⟩

/-- Two fields have the same in a slot. -/
def Slot.Same (first second : Field) : Slot → Prop
  | .origin => first.origin = second.origin
  | .font => first.lettering = second.lettering
  | .data => first.data = second.data
  | .indicator => first.indicator = second.indicator
  | .reverse => first.reverse = second.reverse
  | .block => first.block = second.block
  | .printing => first.printing = second.printing

/-- A field is known by its slots. -/
theorem Field.eq_of_same
    {first second : Field}
    (same : ∀ slot : Slot, slot.Same first second) :
    first = second := by
  obtain ⟨origin, lettering, data, indicator, reverse, block, printing⟩ := first
  cases same .origin
  cases same .font
  cases same .data
  cases same .indicator
  cases same .reverse
  cases same .block
  cases same .printing
  rfl

theorem Slot.Same.trans
    {slot : Slot}
    {first second third : Field}
    (front : slot.Same first second)
    (back : slot.Same second third) :
    slot.Same first third := by
  cases slot <;> exact Eq.trans front back

theorem Slot.Same.symm
    {slot : Slot}
    {first second : Field}
    (same : slot.Same first second) :
    slot.Same second first := by
  cases slot <;> exact Eq.symm same

/-! ## What a command writes and reads -/

namespace Command

/-- The slot that a command writes. -/
def slot? : Command → Option Slot
  | .origin _ _ _ => some .origin
  | .font _ => some .font
  | .data _ => some .data
  | .escapes _ => some .indicator
  | .reverse => some .reverse
  | .block _ => some .block
  | .request _ => some .printing
  | .home _ _ | .reverseAll _ | .printWidth _ | .labelLength _ | .invert _ | .defaultFont _
  | .defaultOrientation _ | .barDefaults _ _ | .endField | .nothing => none

theorem ensures_bind_slot
    {Parsed : Type}
    {slot : Slot}
    {next : Parsed → Except MarkupError Command}
    (writes : ∀ parsed, Ensures (fun command => command.slot? = some slot) (next parsed))
    (outcome : Except MarkupError Parsed) :
    Ensures (fun command => command.slot? = some slot) (outcome >>= next) :=
  (ensures_true outcome).bind fun parsed _ => writes parsed

theorem ensures_map_slot
    {Parsed : Type}
    {slot : Slot}
    {make : Parsed → Command}
    (writes : ∀ parsed, (make parsed).slot? = some slot)
    (outcome : Except MarkupError Parsed) :
    Ensures (fun command => command.slot? = some slot) (outcome.map make) :=
  (ensures_true outcome).map fun parsed _ => writes parsed

/-- The code of a command tells the slot that it writes. -/
theorem ensures_read_slot
    {slot : Slot}
    {code : List Char}
    (member : code ∈ slot.codes)
    (params : List Char) :
    Ensures (fun command => command.slot? = some slot) (read code params) := by
  cases slot
  all_goals simp only [Slot.codes, List.mem_cons, List.not_mem_nil, or_false] at member
  case origin =>
      rcases member with rfl | rfl
      all_goals exact ensures_bind_slot (fun _ => ensures_bind_slot (fun _ => ensures_ok rfl) _) _
  case font =>
      cases member
      exact ensures_map_slot (fun _ => rfl) _
  case data =>
      rcases member with rfl | rfl
      all_goals exact ensures_ok rfl
  case indicator | reverse =>
      cases member
      exact ensures_ok rfl
  case block =>
      cases member
      exact ensures_bind_slot (fun _ => ensures_bind_slot (fun _ =>
        ensures_bind_slot (fun _ => ensures_ok rfl) _) _) _
  case printing =>
      rcases member with rfl | member
      · exact ensures_bind_slot (fun _ => ensures_ok rfl) _
      · rcases member with rfl | rfl | rfl | rfl | rfl | rfl
        all_goals exact ensures_map_slot (fun _ => rfl) _

theorem labelCode?_of_slot
    {command : Command}
    {slot : Slot}
    (writes : command.slot? = some slot) :
    command.labelCode? = none := by
  cases command <;> cases writes <;> rfl

end Command

namespace LabelState

/-- From one state to another the open field changes, in one slot only. -/
structure Writes
    (slot : Slot)
    (before after : LabelState) : Prop where
  frame : AgreesButField before after
  keeps : ∀ other, other ≠ slot → other.Same before.field after.field

theorem ensures_apply_keeps
    (state : LabelState)
    {command : Command}
    {slot : Slot}
    (writes : command.slot? = some slot) :
    Ensures (fun after => ∀ other, other ≠ slot → other.Same state.field after.field)
      (state.apply command) := by
  cases command <;> cases writes
  case data text =>
      refine (ensures_true _).map fun decoded _ other apart => ?_
      cases other <;> first | contradiction | rfl
  all_goals
    refine ensures_ok fun other apart => ?_
    cases other <;> first | contradiction | rfl

/-- A command writes its slot. -/
theorem ensures_apply_writes
    (state : LabelState)
    {command : Command}
    {slot : Slot}
    (writes : command.slot? = some slot) :
    Ensures (Writes slot state) (state.apply command) := fun after applied =>
  ⟨state.ensures_apply_agreesButField (Command.labelCode?_of_slot writes) after applied,
    state.ensures_apply_keeps writes after applied⟩

/-- Two slots are written in either order; the states agree if each slot gets the same. -/
theorem Writes.eq_of_orders
    {slot other : Slot}
    {before left leftAfter right rightAfter : LabelState}
    (apart : slot ≠ other)
    (toLeft : Writes slot before left)
    (leftDown : Writes other left leftAfter)
    (toRight : Writes other before right)
    (rightDown : Writes slot right rightAfter)
    (sameSlot : slot.Same left.field rightAfter.field)
    (sameOther : other.Same leftAfter.field right.field) :
    leftAfter = rightAfter := by
  have leftFrame := toLeft.frame.trans leftDown.frame
  have rightFrame := toRight.frame.trans rightDown.frame
  have fields : leftAfter.field = rightAfter.field := by
    apply Field.eq_of_same
    intro place
    by_cases isSlot : place = slot
    · subst isSlot
      exact (leftDown.keeps place apart).symm.trans sameSlot
    · by_cases isOther : place = other
      · subst isOther
        exact sameOther.trans (rightDown.keeps place isSlot)
      · have onLeft := (toLeft.keeps place isSlot).trans (leftDown.keeps place isOther)
        have onRight := (toRight.keeps place isOther).trans (rightDown.keeps place isSlot)
        exact onLeft.symm.trans onRight
  have labels : leftAfter.label = rightAfter.label :=
    leftFrame.label.trans rightFrame.label.symm
  have settings : leftAfter.settings = rightAfter.settings :=
    leftFrame.settings.trans rightFrame.settings.symm
  obtain ⟨label, kept, field⟩ := leftAfter
  cases labels
  cases settings
  cases fields
  rfl

/-- What a command writes depends on settings, and for data on the announcement of escapes. -/
theorem apply_alike
    {state other after : LabelState}
    {command : Command}
    {slot : Slot}
    (writes : command.slot? = some slot)
    (settings : state.settings = other.settings)
    (announced : slot = .data → state.field.indicator = other.field.indicator)
    (applied : state.apply command = .ok after) :
    ∃ otherAfter, other.apply command = .ok otherAfter ∧
      slot.Same after.field otherAfter.field := by
  cases command <;> cases writes
  case data text =>
      have alike : state.fieldData text = other.fieldData text := by
        rw [fieldData, fieldData, announced rfl]
      rw [apply, alike] at applied
      rw [apply]
      cases read : other.fieldData text with
      | error fault =>
          rw [read] at applied
          cases applied
      | ok decoded =>
          rw [read] at applied
          cases applied
          exact ⟨_, rfl, rfl⟩
  case font | origin | request =>
      cases applied
      refine ⟨_, rfl, ?_⟩
      simp only [Slot.Same, settings]
  all_goals
    cases applied
    exact ⟨_, rfl, rfl⟩

/-- Commands that write independent slots succeed in the other order, with the same state. -/
theorem apply_swap
    {before between after : LabelState}
    {first second : Command}
    {slot other : Slot}
    (firstWrites : first.slot? = some slot)
    (secondWrites : second.slot? = some other)
    (independent : slot.Independent other)
    (firstApplied : before.apply first = .ok between)
    (secondApplied : between.apply second = .ok after) :
    ∃ otherBetween, before.apply second = .ok otherBetween ∧
      otherBetween.apply first = .ok after := by
  obtain ⟨apart, notForward, notBackward⟩ := independent
  have toLeft := before.ensures_apply_writes firstWrites between firstApplied
  have leftDown := between.ensures_apply_writes secondWrites after secondApplied
  -- The second command reads the same without the first one in front of it.
  obtain ⟨right, toRightApplied, sameOther⟩ := apply_alike secondWrites toLeft.frame.settings
    (fun isData => (toLeft.keeps .indicator fun isIndicator =>
      notForward ⟨isIndicator.symm, isData⟩).symm) secondApplied
  have toRight := before.ensures_apply_writes secondWrites right toRightApplied
  -- And so does the first one behind the second.
  obtain ⟨rightAfter, rightApplied, sameSlot⟩ := apply_alike firstWrites
    toRight.frame.settings.symm
    (fun isData => toRight.keeps .indicator fun isIndicator =>
      notBackward ⟨isData, isIndicator.symm⟩) firstApplied
  have rightDown := right.ensures_apply_writes firstWrites rightAfter rightApplied
  rw [toLeft.eq_of_orders apart leftDown toRight rightDown sameSlot sameOther]
  exact ⟨right, toRightApplied, rightApplied⟩

theorem applyToken_eq_ok_iff
    {before after : LabelState}
    {token : Token} :
    before.applyToken token = .ok after ↔
      ∃ command, Command.ofToken token = .ok command ∧ before.apply command = .ok after := by
  rw [applyToken]
  cases Command.ofToken token with
  | error fault =>
      simp only [reduceCtorEq, false_and, exists_false]
  | ok command =>
      simp only [Except.ok.injEq, exists_eq_left']

end LabelState

/-! ## Commands of a field -/

theorem ensures_ofToken_slot
    {token : Token}
    {slot : Slot}
    (writes : token.writes slot = true) :
    Ensures (fun command => command.slot? = some slot) (Command.ofToken token) := by
  obtain ⟨lead, code, params⟩ := token
  rw [Token.writes, Bool.and_eq_true, decide_eq_true_eq, List.contains_iff_mem] at writes
  obtain ⟨rfl, member⟩ := writes
  exact Command.ensures_read_slot member params

theorem foldlM_swap_of_independent
    {first second : Token}
    {slot other : Slot}
    (firstWrites : first.writes slot = true)
    (secondWrites : second.writes other = true)
    (independent : slot.Independent other)
    {before after : LabelState}
    (run : [first, second].foldlM LabelState.applyToken before = .ok after) :
    [second, first].foldlM LabelState.applyToken before = .ok after := by
  obtain ⟨between, firstRun, secondRun⟩ := foldlM_pair_eq_ok_iff.mp run
  obtain ⟨firstCommand, firstRead, firstApplied⟩ := LabelState.applyToken_eq_ok_iff.mp firstRun
  obtain ⟨secondCommand, secondRead, secondApplied⟩ :=
    LabelState.applyToken_eq_ok_iff.mp secondRun
  obtain ⟨otherBetween, toOther, fromOther⟩ := LabelState.apply_swap
    (ensures_ofToken_slot firstWrites _ firstRead)
    (ensures_ofToken_slot secondWrites _ secondRead) independent firstApplied secondApplied
  exact foldlM_pair_eq_ok_iff.mpr ⟨otherBetween,
    LabelState.applyToken_eq_ok_iff.mpr ⟨secondCommand, secondRead, toOther⟩,
    LabelState.applyToken_eq_ok_iff.mpr ⟨firstCommand, firstRead, fromOther⟩⟩

/-- Commands that write independent slots may change places. -/
theorem commute_of_independent
    {first second : Token}
    {slot other : Slot}
    (firstWrites : first.writes slot = true)
    (secondWrites : second.writes other = true)
    (independent : slot.Independent other) :
    Commute LabelState.applyToken first second := fun _ _ =>
  ⟨foldlM_swap_of_independent firstWrites secondWrites independent,
    foldlM_swap_of_independent secondWrites firstWrites independent.symm⟩

/-- A command that asks for nothing may stand anywhere. -/
theorem commute_of_nothing
    {idle : Token}
    (asksNothing : Command.ofToken idle = .ok .nothing)
    (token : Token) :
    Commute LabelState.applyToken idle token := by
  have stays : ∀ state : LabelState, state.applyToken idle = .ok state := by
    intro state
    rw [LabelState.applyToken, asksNothing]
    rfl
  intro before after
  rw [foldlM_pair_eq_ok_iff, foldlM_pair_eq_ok_iff]
  simp only [stays, Except.ok.injEq, exists_eq_left', exists_eq_right]

/-- A command of a field: it writes a slot, or asks for nothing, as comments do. -/
def Token.OfField (token : Token) : Prop :=
  (∃ slot, token.writes slot = true) ∨
    Command.ofToken token = .ok .nothing ∧ token.inLabel = true

/-- The commands of a field in another order, which is the same one where it matters. -/
structure Reorders (field others : List Token) : Prop where
  perm : field.Perm others
  /-- Commands that write the same slot stay in order. -/
  slots : ∀ slot : Slot, field.filter (·.writes slot) = others.filter (·.writes slot)
  /-- So do announcements of escapes and data. -/
  escapes : field.filter (fun token => token.writes .indicator || token.writes .data) =
    others.filter fun token => token.writes .indicator || token.writes .data

/-- The groups within which commands stay in order: one for each slot, and that of escapes. -/
def Token.inGroup : Option Slot → Token → Bool
  | some slot, token => token.writes slot
  | none, token => token.writes .indicator || token.writes .data

/-- Commands of a field that are in no group together may change places. -/
theorem commute_of_groups
    {first second : Token}
    (firstOfField : first.OfField)
    (secondOfField : second.OfField)
    (apart : ∀ group, first.inGroup group = true → second.inGroup group = false) :
    Commute LabelState.applyToken first second := by
  rcases firstOfField with ⟨slot, firstWrites⟩ | ⟨firstIdle, -⟩
  · rcases secondOfField with ⟨other, secondWrites⟩ | ⟨secondIdle, -⟩
    · have notBoth : ∀ group, first.inGroup group = true → ¬ second.inGroup group = true := by
        intro group inFirst inSecond
        rw [apart group inFirst] at inSecond
        cases inSecond
      refine commute_of_independent firstWrites secondWrites ⟨?_, ?_, ?_⟩
      · rintro rfl
        exact notBoth (some slot) firstWrites secondWrites
      · rintro ⟨rfl, rfl⟩
        exact notBoth none (by simp [Token.inGroup, firstWrites])
          (by simp [Token.inGroup, secondWrites])
      · rintro ⟨rfl, rfl⟩
        exact notBoth none (by simp [Token.inGroup, firstWrites])
          (by simp [Token.inGroup, secondWrites])
    · exact fun before after => (commute_of_nothing secondIdle first before after).symm
  · exact commute_of_nothing firstIdle second

/-- The commands of a field lead to the same state in each order that keeps it where it matters. -/
theorem Reorders.foldlM_applyToken
    {field others : List Token}
    (reorders : Reorders field others)
    (ofField : ∀ token ∈ field, token.OfField)
    (before after : LabelState) :
    field.foldlM LabelState.applyToken before = .ok after ↔
      others.foldlM LabelState.applyToken before = .ok after := by
  refine foldlM_reorder Token.inGroup ?_ reorders.perm ?_ before after
  · intro first firstMember second secondMember apart
    exact commute_of_groups (ofField first firstMember) (ofField second secondMember) apart
  · intro group
    cases group with
    | none => exact reorders.escapes
    | some slot => exact reorders.slots slot

/-! ## The end of a field in another order -/

namespace LabelState

theorem ensures_applyToken_ofField
    (state : LabelState)
    {token : Token}
    (ofField : token.OfField) :
    Ensures (AgreesButField state) (state.applyToken token) := by
  intro after applied
  obtain ⟨command, read, applied⟩ := applyToken_eq_ok_iff.mp applied
  rcases ofField with ⟨slot, writes⟩ | ⟨idle, -⟩
  · have kept := state.ensures_apply_writes (ensures_ofToken_slot writes command read)
    exact (kept after applied).frame
  · rw [idle] at read
    cases read
    cases applied
    exact .refl state

theorem ensures_foldlM_ofField
    (state : LabelState)
    {field : List Token}
    (ofField : ∀ token ∈ field, token.OfField) :
    Ensures (AgreesButField state) (field.foldlM applyToken state) := by
  induction field generalizing state with
  | nil =>
      exact ensures_ok (.refl state)
  | cons token field ih =>
      obtain ⟨first, later⟩ := List.forall_mem_cons.mp ofField
      rw [List.foldlM_cons]
      refine (state.ensures_applyToken_ofField first).bind fun between agrees after run => ?_
      exact agrees.trans (ih between later after run)

/-- A field that is carried out puts at most one element behind the others, and does no more. -/
theorem exists_element?_of_field
    {state after : LabelState}
    {field : List Token}
    {stop : Token}
    (ofField : ∀ token ∈ field, token.OfField)
    (ends : stop.endsField = true)
    (run : (field ++ [stop]).foldlM applyToken state = .ok after) :
    ∃ element? : Option Element,
      after = { state with field := {} }.emit element?.toList.toArray := by
  obtain ⟨between, fieldRun, stopRun⟩ := foldlM_append_eq_ok_iff.mp run
  obtain ⟨sameLabel, sameSettings⟩ := state.ensures_foldlM_ofField ofField between fieldRun
  rw [foldlM_cons_of_ok _ (between.applyToken_of_endsField ends)] at stopRun
  have ended : after = between.endField := (Except.ok.inj stopRun).symm
  have cleared : { between with field := {} } = { state with field := {} } := by
    rw [← sameLabel, ← sameSettings]
  exact ⟨between.field.element? between.settings, by rw [ended, endField_eq_emit, cleared]⟩

end LabelState

/-! ## Labels with a field in another order -/

theorem Token.ends_of_ofField
    {token : Token}
    (ofField : token.OfField) :
    token.opensLabel = false ∧ token.closesLabel = false := by
  rcases ofField with ⟨slot, writes⟩ | ⟨-, inside⟩
  · have neither : ∀ code ∈ slot.codes, code ≠ ['X', 'A'] ∧ code ≠ ['X', 'Z'] := by
      cases slot <;> decide
    rw [Token.writes, Bool.and_eq_true, List.contains_iff_mem] at writes
    simp [opensLabel, closesLabel, neither token.code writes.2]
  · rwa [inLabel, Bool.and_eq_true, Bool.not_eq_true', Bool.not_eq_true'] at inside

theorem Reading.foldlM_step_of_outside
    {tokens : List Token}
    {reading : Reading}
    (outside : reading.current = none)
    (inside : ∀ token ∈ tokens, token.opensLabel = false ∧ token.closesLabel = false) :
    tokens.foldlM Reading.step reading = .ok reading := by
  induction tokens with
  | nil =>
      rfl
  | cons token tokens ih =>
      obtain ⟨first, later⟩ := List.forall_mem_cons.mp inside
      rw [foldlM_cons_of_ok tokens (step_of_outside outside first.1), ih later]

/-- Reading goes on alike behind each order, in a label as well as outside. -/
theorem Reorders.foldlM_step
    {field others : List Token}
    (reorders : Reorders field others)
    (ofField : ∀ token ∈ field, token.OfField)
    (before after : Reading) :
    field.foldlM Reading.step before = .ok after ↔
      others.foldlM Reading.step before = .ok after := by
  have inside : ∀ token ∈ field, token.opensLabel = false ∧ token.closesLabel = false :=
    fun token member => Token.ends_of_ofField (ofField token member)
  have otherInside : ∀ token ∈ others, token.opensLabel = false ∧ token.closesLabel = false :=
    fun token member => inside token (reorders.perm.mem_iff.mpr member)
  cases current : before.current with
  | none =>
      rw [Reading.foldlM_step_of_outside current inside,
        Reading.foldlM_step_of_outside current otherInside]
  | some state =>
      rw [Reading.foldlM_step current inside, Reading.foldlM_step current otherInside,
        map_eq_ok_iff, map_eq_ok_iff]
      exact exists_congr fun last =>
        and_congr_left fun _ => reorders.foldlM_applyToken ofField state last

theorem readTokens_eq_ok_iff
    {tokens : List Token}
    {labels : List Label} :
    readTokens tokens = .ok labels ↔
      ∃ reading, tokens.foldlM Reading.step {} = .ok reading ∧
        reading.close.finished.toList = labels := by
  rw [readTokens_eq_labelsBehind, Reading.labelsBehind, map_eq_ok_iff]

theorem Reorders.readTokens_iff
    {field others : List Token}
    (reorders : Reorders field others)
    (ofField : ∀ token ∈ field, token.OfField)
    (front behind : List Token)
    (labels : List Label) :
    readTokens (front ++ (field ++ behind)) = .ok labels ↔
      readTokens (front ++ (others ++ behind)) = .ok labels := by
  simp only [readTokens_eq_ok_iff, foldlM_append_eq_ok_iff, reorders.foldlM_step ofField]

/--
Within a field the order of commands does not matter, for every state of a label.  Two commands
that write different slots succeed in either order or in none, and lead to the same state, unless
one announces escapes and the other gives data.  So do all commands of a field in any other order
that keeps commands for the same slot in order, and announcements of escapes and data; the field
then emits the same element, and all markup with it is read alike.
-/
theorem field_reorders (state : LabelState) :
    (∀ first second slot other, first.writes slot = true → second.writes other = true →
        slot.Independent other →
          ∀ after, [first, second].foldlM LabelState.applyToken state = .ok after ↔
            [second, first].foldlM LabelState.applyToken state = .ok after) ∧
      (∀ field others stop, (∀ token ∈ field, token.OfField) → Reorders field others →
        stop.endsField = true →
          (∀ after, (field ++ [stop]).foldlM LabelState.applyToken state = .ok after ↔
            (others ++ [stop]).foldlM LabelState.applyToken state = .ok after) ∧
          (∀ after, (field ++ [stop]).foldlM LabelState.applyToken state = .ok after →
            ∃ element? : Option Element,
              after = { state with field := {} }.emit element?.toList.toArray) ∧
          (∀ front behind labels, readTokens (front ++ (field ++ behind)) = .ok labels ↔
            readTokens (front ++ (others ++ behind)) = .ok labels)) := by
  constructor
  · intro first second slot other firstWrites secondWrites independent after
    exact commute_of_independent firstWrites secondWrites independent state after
  · intro field others stop ofField reorders ends
    refine ⟨?_, ?_, ?_⟩
    · intro after
      rw [foldlM_append_eq_ok_iff, foldlM_append_eq_ok_iff]
      exact exists_congr fun between =>
        and_congr_left fun _ => reorders.foldlM_applyToken ofField state between
    · intro after run
      exact LabelState.exists_element?_of_field ofField ends run
    · exact reorders.readTokens_iff ofField

/-- A field with escapes and a comment, nearly turned round. -/
theorem field_reorders_of_escaped_letter :
    let place : Token := ⟨.caret, ['F', 'O'], ['5', ',', '6']⟩
    let escapes : Token := ⟨.caret, ['F', 'H'], []⟩
    let data : Token := ⟨.caret, ['F', 'D'], ['_', '4', '1']⟩
    let comment : Token := ⟨.caret, ['F', 'X'], ['n', 'o']⟩
    let reverse : Token := ⟨.caret, ['F', 'R'], []⟩
    let stop : Token := ⟨.caret, ['F', 'S'], []⟩
    let field := [place, escapes, data, comment, reverse]
    let others := [comment, reverse, escapes, data, place]
    let label : Label := { elements := #[⟨⟨5, 6, .topLeft⟩, true, .text "A" default none⟩] }
    (∀ token ∈ field, token.OfField) ∧ Reorders field others ∧ stop.endsField = true ∧
      [place, escapes].foldlM LabelState.applyToken {} =
        [escapes, place].foldlM LabelState.applyToken {} ∧
      (others ++ [stop]).foldlM LabelState.applyToken {} = .ok { label := label } ∧
      readTokens ([⟨.caret, ['X', 'A'], []⟩] ++ (others ++ [stop])) = .ok [label] := by
  intro place escapes data comment reverse stop field others label
  have ofField : ∀ token ∈ field, token.OfField := by
    simp only [field, List.forall_mem_cons]
    exact ⟨.inl ⟨.origin, rfl⟩, .inl ⟨.indicator, rfl⟩, .inl ⟨.data, rfl⟩, .inr ⟨rfl, rfl⟩,
      .inl ⟨.reverse, rfl⟩, by simp⟩
  have reorders : Reorders field others :=
    ⟨by decide, fun slot => by cases slot <;> rfl, rfl⟩
  have apart : Slot.Independent .origin .indicator := ⟨by decide, by decide, by decide⟩
  obtain ⟨swaps, reordered⟩ := field_reorders {}
  obtain ⟨alike, -, labels⟩ := reordered field others stop ofField reorders rfl
  refine ⟨ofField, reorders, rfl, ?_, (alike _).mp ?_, (labels _ _ _).mp ?_⟩
  · exact (swaps place escapes .origin .indicator rfl rfl apart _).mpr rfl
  · with_unfolding_all rfl
  · with_unfolding_all rfl

end LabelPress.Markup
