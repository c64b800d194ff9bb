import LabelPress.Proofs.Code128.Scanning

/-!
# What a symbol in normal mode says to a scanner

In normal mode the data choose the set by invocations.  A run (`NormalRun`) is the row of steps
into which data are taken, with the set in force as its state; every step of a run is encoded in
the set that is in force there.

An invocation of the set that is in force already is taken like any other: it becomes the switch
value of that set, which says something else in the set itself.  The main statement
(`scan_normal_eq_text_iff`) is that this is the only way in which a symbol can say anything but the
text that is printed below its bars.
-/

namespace LabelPress.Code128

open LabelPress.Text

/-! ## Single steps -/

/-- Plain data become a step of the set in force that prints something. -/
theorem encodedIn_of_plainStep {set : CodeSet} {character : Char}
    {rest behind : List Char} {step : Step}
    (taken : plainStep set character rest = .ok (step, behind)) :
    step.EncodedIn set ∧ step.text ≠ [] := by
  unfold plainStep at taken
  split at taken
  · split at taken
    · cases taken
    · split at taken
      · rename_i found
        cases taken
        exact ⟨encodedIn_of_ofPair? found, text_ne_nil_of_ofPair? found⟩
      · cases taken
  · split at taken
    · rename_i found
      cases taken
      exact ⟨encodedIn_of_ofCharacter? found, text_ne_nil_of_ofCharacter? found⟩
    · cases taken

/--
Whatever normal mode takes off the data is the switch that an invocation asks for, or a step of the
set in force that is no switch.
-/
theorem normalStep_cases {set : CodeSet} {character : Char}
    {rest behind : List Char} {step : Step}
    (taken : normalStep set character rest = .ok (step, behind)) :
    (∃ next target, character = '>' ∧ rest = next :: behind ∧
        switch? next = some target ∧ step = .switch target) ∨
      step.EncodedIn set ∧ ∀ target, step ≠ .switch target := by
  have plain : ∀ {character : Char} {rest : List Char},
      plainStep set character rest = .ok (step, behind) →
        step.EncodedIn set ∧ ∀ target, step ≠ .switch target := by
    intro character rest takenPlain
    rcases encodedIn_of_plainStep takenPlain with ⟨encoded, prints⟩
    exact ⟨encoded, ne_switch_of_text prints⟩
  unfold normalStep at taken
  split at taken
  · rename_i next behind'
    split at taken
    · rename_i target invoked
      cases taken
      exact Or.inl ⟨next, target, rfl, rfl, invoked, rfl⟩
    · refine Or.inr ?_
      split at taken
      · cases taken
        exact ⟨trivial, fun target => Step.noConfusion⟩
      · split at taken
        · split at taken
          · rename_i found
            cases taken
            exact ⟨encodedIn_of_ofCharacter? found,
              ne_switch_of_text (text_ne_nil_of_ofCharacter? found)⟩
          · cases taken
        · exact plain taken
  · exact Or.inr (plain taken)

theorem normalStep_encodedIn {set : CodeSet} {character : Char}
    {rest behind : List Char} {step : Step}
    (taken : normalStep set character rest = .ok (step, behind)) :
    step.EncodedIn set := by
  rcases normalStep_cases taken with ⟨next, target, -, -, -, rfl⟩ | ⟨encoded, -⟩
  · exact trivial
  · exact encoded

/-- A switch is taken off the data exactly where an invocation asks for it. -/
theorem normalStep_eq_switch_iff {set target : CodeSet} {character : Char}
    {rest behind : List Char} :
    normalStep set character rest = .ok (.switch target, behind) ↔
      ∃ next, character = '>' ∧ rest = next :: behind ∧ switch? next = some target := by
  constructor
  · intro taken
    rcases normalStep_cases taken with
      ⟨next, another, opens, front, found, equal⟩ | ⟨-, noSwitch⟩
    · cases equal
      exact ⟨next, opens, front, found⟩
    · exact absurd rfl (noSwitch target)
  · rintro ⟨next, rfl, rfl, invoked⟩
    simp [normalStep, invoked]

/-! ## Runs over the data -/

/-- The steps into which data are taken in normal mode, from a set on. -/
inductive NormalRun : CodeSet → List Char → List Step → Prop where
  | done {set : CodeSet} : NormalRun set [] []
  | step {set : CodeSet} {character : Char} {rest behind : List Char}
      {step : Step} {steps : List Step}
      (taken : normalStep set character rest = .ok (step, behind))
      (later : NormalRun (step.setAfter set) behind steps) :
      NormalRun set (character :: rest) (step :: steps)

/-- Encoding succeeds with the steps of a run, behind those that were there before. -/
theorem exists_normalRun {found all : Array Step} {set : CodeSet} {data : List Char}
    (encoded : normalStepsFrom found set data = .ok all) :
    ∃ steps, NormalRun set data steps ∧ all.toList = found.toList ++ steps := by
  fun_induction normalStepsFrom found set data with
  | case1 found set =>
      cases encoded
      exact ⟨[], .done, by simp⟩
  | case2 found set character rest step behind taken ih =>
      rcases ih encoded with ⟨steps, run, equal⟩
      exact ⟨step :: steps, .step taken run, by simp [equal]⟩
  | case3 found set character rest fault failed =>
      cases encoded

/-- Every step of a run is encoded in the set that is in force there. -/
theorem NormalRun.encodedFrom {set : CodeSet} {data : List Char} {steps : List Step}
    (run : NormalRun set data steps) :
    EncodedFrom set steps := by
  induction run with
  | done =>
      exact trivial
  | step taken later ih =>
      exact ⟨normalStep_encodedIn taken, ih⟩

/--
Data that somewhere invoke the set that is in force there.  The set follows the steps that normal
mode takes off the data.
-/
inductive InvokesSetInForce : CodeSet → List Char → Prop where
  | here {set : CodeSet} {next : Char} {behind : List Char}
      (idle : switch? next = some set) :
      InvokesSetInForce set ('>' :: next :: behind)
  | later {set : CodeSet} {character : Char} {rest behind : List Char} {step : Step}
      (taken : normalStep set character rest = .ok (step, behind))
      (idle : InvokesSetInForce (step.setAfter set) behind) :
      InvokesSetInForce set (character :: rest)

/-- A run switches away throughout exactly if its data never invoke the set in force. -/
theorem NormalRun.switchesAway_iff {set : CodeSet} {data : List Char} {steps : List Step}
    (run : NormalRun set data steps) :
    SwitchesAway set steps ↔ ¬ InvokesSetInForce set data := by
  induction run with
  | done =>
      refine ⟨fun _ idle => ?_, fun _ => trivial⟩
      cases idle
  | step taken run ih =>
      constructor
      · rintro ⟨away, restAway⟩ idle
        cases idle with
        | here invoked =>
            rw [normalStep_eq_switch_iff.mpr ⟨_, rfl, rfl, invoked⟩] at taken
            cases taken
            exact away rfl
        | later takenAgain idle =>
            rw [taken] at takenAgain
            cases takenAgain
            exact ih.mp restAway idle
      · intro noneIdle
        refine ⟨?_, ih.mpr fun idle => noneIdle (.later taken idle)⟩
        rintro rfl
        rcases normalStep_eq_switch_iff.mp taken with ⟨next, rfl, rfl, invoked⟩
        exact noneIdle (.here invoked)

/-! ## Whole symbols -/

/-- The set in which normal mode opens a symbol, and the data behind the invocation of it. -/
def opening (data : List Char) : CodeSet × List Char :=
  match data with
  | '>' :: next :: rest =>
    match startSet? next with
    | some set => (set, rest)
    | none => (.b, data)
  | _ => (.b, data)

theorem normalPlan_eq (data : List Char) :
    normalPlan data =
      (normalStepsFrom #[] (opening data).1 (opening data).2).map
        fun steps => ((opening data).1, steps.toList) :=
  rfl

/-- A plan in normal mode is a run over the data behind their opening. -/
theorem normalRun_of_normalPlan {data : List Char} {set : CodeSet} {steps : List Step}
    (planned : normalPlan data = .ok (set, steps)) :
    set = (opening data).1 ∧ NormalRun set (opening data).2 steps := by
  rw [normalPlan_eq] at planned
  cases taken : normalStepsFrom #[] (opening data).1 (opening data).2 with
  | error fault =>
      rw [taken] at planned
      cases planned
  | ok all =>
      rw [taken] at planned
      cases planned
      rcases exists_normalRun taken with ⟨steps, run, equal⟩
      rw [equal]
      exact ⟨rfl, run⟩

/--
A symbol in normal mode is scanned as the text that is printed with it exactly if its data never
invoke the set that is in force already.
-/
theorem scan_normal_eq_text_iff (data : List Char) (symbol : Symbol)
    (encoded : encode data .normal = .ok symbol) :
    scan symbol.values.dropLast = some symbol.text ↔
      ¬ InvokesSetInForce (opening data).1 (opening data).2 := by
  rcases encode_eq_ok_iff.mp encoded with ⟨set, steps, planned, rfl⟩
  rcases normalRun_of_normalPlan planned with ⟨rfl, run⟩
  rw [scan_ofPlan, ← run.switchesAway_iff]
  exact scanFrom_values_eq_text_iff run.encodedFrom

/-- Data that go from set B to C and back never invoke the set in force. -/
theorem not_invokesSetInForce_of_two_switches :
    encode "A>512>6B><".toList .normal =
        .ok ⟨[104, 33, 99, 12, 100, 34, 30, 91], "A12B>".toList⟩ ∧
      ¬ InvokesSetInForce .b "A>512>6B><".toList := by
  have encoded :
      encode "A>512>6B><".toList .normal =
        .ok ⟨[104, 33, 99, 12, 100, 34, 30, 91], "A12B>".toList⟩ := by
    with_unfolding_all rfl
  refine ⟨encoded, ?_⟩
  exact (scan_normal_eq_text_iff _ _ encoded).mp (by decide)

/-- The switch value of set C is scanned in set C as two nines, which are not printed. -/
theorem scan_switch_to_set_in_force :
    encode ">;>512".toList .normal = .ok ⟨[105, 99, 12, 22], "12".toList⟩ ∧
      scan [105, 99, 12] = some "9912".toList := by
  constructor
  · with_unfolding_all rfl
  · decide

end LabelPress.Code128
