import LabelPress.Proofs.Code128.Scanning

/-!
# Automatic mode keeps the data

In automatic mode the sets are chosen by the encoder.  What it takes off the data at a time has one
of two forms (`Takes`): a step that the set in force encodes, or a switch to another set and a step
of that set.  The invariant along a whole run is that the set of the encoder is the one in which
every step is encoded, that no switch leads to the set in force, and that the steps print exactly
the data.

The main statement (`automatic_scan_eq_data`) is that a symbol exists exactly for ASCII data, and
that a scanner reads the data from it.
-/

namespace LabelPress.Code128

open LabelPress.Text

/-! ## Characters and their sets -/

theorem exists_value?_ofText {character : Char} (ascii : isAscii character = true) :
    ∃ value, (CodeSet.ofText character).value? character = some value := by
  have bound : character.toNat < 128 := by
    simpa [isAscii] using ascii
  by_cases control : character.toNat < 32
  · exact ⟨character.toNat + 64, by simp [CodeSet.ofText, CodeSet.value?, control]⟩
  · have range : 32 ≤ character.toNat ∧ character.toNat < 128 := by omega
    exact ⟨character.toNat - 32, by simp [CodeSet.ofText, CodeSet.value?, control, range]⟩

/-- What one text set lacks, the other one has. -/
theorem exists_value?_other {set : CodeSet} {character : Char}
    (ascii : isAscii character = true) (isText : set ≠ .c)
    (lacks : set.value? character = none) :
    ∃ value, set.other.value? character = some value := by
  have bound : character.toNat < 128 := by
    simpa [isAscii] using ascii
  cases set with
  | a =>
      have range : 32 ≤ character.toNat ∧ character.toNat < 128 := by
        simp only [CodeSet.value?] at lacks
        split at lacks
        · cases lacks
        · omega
      exact ⟨character.toNat - 32, by simp [CodeSet.other, CodeSet.value?, range]⟩
  | b =>
      have control : character.toNat < 32 := by
        simp only [CodeSet.value?] at lacks
        split at lacks
        · cases lacks
        · omega
      exact ⟨character.toNat + 64, by simp [CodeSet.other, CodeSet.value?, control]⟩
  | c =>
      exact absurd rfl isText

/-- Both text sets have the digits. -/
theorem exists_value?_of_digit {set : CodeSet} {character : Char} {digit : Nat}
    (found : decimalDigit? character = some digit) (isText : set ≠ .c) :
    ∃ value, set.value? character = some value := by
  have range : 48 ≤ character.toNat ∧ character.toNat ≤ 57 := by
    have digits := isDecimalDigit_of_decimalDigit? found
    simp only [isDecimalDigit, Bool.and_eq_true, decide_eq_true_eq] at digits
    exact digits
  cases set with
  | a =>
      have notControl : ¬ character.toNat < 32 := by omega
      have upper : character.toNat < 96 := by omega
      exact ⟨character.toNat - 32, by simp [CodeSet.value?, notControl, upper]⟩
  | b =>
      have inSet : 32 ≤ character.toNat ∧ character.toNat < 128 := by omega
      exact ⟨character.toNat - 32, by simp [CodeSet.value?, inSet]⟩
  | c =>
      exact absurd rfl isText

/-! ## What is taken at a time -/

/--
Steps that take something off the front of data, and the data behind: a single step of the set in
force, or a switch to another set and a single step of that set.
-/
inductive Takes (set : CodeSet) (data : List Char) : List Step × List Char → Prop where
  | inForce {step : Step} {behind : List Char}
      (encoded : step.EncodedIn set)
      (prints : step.text ++ behind = data) (isText : step.text ≠ []) :
      Takes set data ([step], behind)
  | behindSwitch {target : CodeSet} {step : Step} {behind : List Char}
      (away : target ≠ set) (encoded : step.EncodedIn target)
      (prints : step.text ++ behind = data) (isText : step.text ≠ []) :
      Takes set data ([.switch target, step], behind)

theorem Takes.encodedFrom {set : CodeSet} {data : List Char}
    {taken : List Step × List Char} (takes : Takes set data taken) :
    EncodedFrom set taken.1 := by
  cases takes with
  | inForce encoded prints isText =>
      exact ⟨encoded, trivial⟩
  | behindSwitch away encoded prints isText =>
      exact ⟨trivial, encoded, trivial⟩

theorem Takes.switchesAway {set : CodeSet} {data : List Char}
    {taken : List Step × List Char} (takes : Takes set data taken) :
    SwitchesAway set taken.1 := by
  cases takes with
  | inForce encoded prints isText =>
      exact ⟨ne_switch_of_text isText set, trivial⟩
  | behindSwitch away encoded prints isText =>
      refine ⟨?_, ne_switch_of_text isText _, trivial⟩
      intro same
      cases same
      exact away rfl

theorem Takes.text_append {set : CodeSet} {data : List Char}
    {taken : List Step × List Char} (takes : Takes set data taken) :
    taken.1.flatMap Step.text ++ taken.2 = data := by
  cases takes with
  | inForce encoded prints isText =>
      simpa using prints
  | behindSwitch away encoded prints isText =>
      simpa [Step.text] using prints

/-- A character is taken with its value in the set in force. -/
theorem takes_character {set : CodeSet} {character : Char} {rest : List Char} {value : Nat}
    (found : set.value? character = some value) :
    Takes set (character :: rest) ((Step.ofCharacter? set character).toList, rest) := by
  rw [Step.ofCharacter?, found]
  exact .inForce found rfl (List.cons_ne_nil _ _)

/-- A character is taken behind a switch with its value in the other set. -/
theorem takes_switch_character {set target : CodeSet} {character : Char}
    {rest : List Char} {value : Nat} (away : target ≠ set)
    (found : target.value? character = some value) :
    Takes set (character :: rest)
      (.switch target :: (Step.ofCharacter? target character).toList, rest) := by
  rw [Step.ofCharacter?, found]
  exact .behindSwitch away found rfl (List.cons_ne_nil _ _)

/-- A pair of digits is taken in set C. -/
theorem takes_pair {tens ones : Char} {behind : List Char} {step : Step}
    (found : Step.ofPair? tens ones = some step) :
    Takes .c (tens :: ones :: behind) ([step], behind) := by
  rcases ofPair?_eq_some found with ⟨high, low, -, -, rfl⟩
  exact .inForce (encodedIn_of_ofPair? found) rfl (List.cons_ne_nil _ _)

/-- A pair of digits is taken in a text set behind a switch to set C. -/
theorem takes_switch_pair {set : CodeSet} {tens ones : Char} {behind : List Char}
    {step : Step} (isText : set ≠ .c) (found : Step.ofPair? tens ones = some step) :
    Takes set (tens :: ones :: behind) ([.switch .c, step], behind) := by
  rcases ofPair?_eq_some found with ⟨high, low, -, -, rfl⟩
  exact .behindSwitch isText.symm (encodedIn_of_ofPair? found) rfl (List.cons_ne_nil _ _)

/-- What is taken off two digits. -/
theorem automaticSteps_of_pair (set : CodeSet) {tens ones : Char} {step : Step}
    (behind : List Char) (found : Step.ofPair? tens ones = some step) :
    automaticSteps set tens (ones :: behind) =
      if set = .c then ([step], behind)
      else if 4 ≤ digitRun (tens :: ones :: behind) ∧
          digitRun (tens :: ones :: behind) % 2 = 0 then
        ([.switch .c, step], behind)
      else ((Step.ofCharacter? set tens).toList, ones :: behind) := by
  cases set <;> simp [automaticSteps, found]

/-- What is taken off a character that does not open a pair of digits. -/
theorem automaticSteps_of_no_pair (set : CodeSet) {character : Char} {rest : List Char}
    (noPair : ∀ ones behind, rest = ones :: behind → Step.ofPair? character ones = none) :
    automaticSteps set character rest =
      if set = .c then
        (.switch (.ofText character) ::
          (Step.ofCharacter? (.ofText character) character).toList, rest)
      else if (set.value? character).isSome then
        ((Step.ofCharacter? set character).toList, rest)
      else (.switch set.other :: (Step.ofCharacter? set.other character).toList, rest) := by
  cases rest with
  | nil =>
      cases set <;> simp [automaticSteps]
  | cons ones behind =>
      have none := noPair ones behind rfl
      cases set <;> simp [automaticSteps, none]

theorem takes_automaticSteps_of_pair (set : CodeSet) {tens ones : Char} {step : Step}
    (behind : List Char) (found : Step.ofPair? tens ones = some step) :
    Takes set (tens :: ones :: behind) (automaticSteps set tens (ones :: behind)) := by
  rw [automaticSteps_of_pair set behind found]
  split
  · rename_i inPairs
    subst inPairs
    exact takes_pair found
  · rename_i isText
    split
    · exact takes_switch_pair isText found
    · obtain ⟨high, low, tensDigit, -, -⟩ := ofPair?_eq_some found
      rcases exists_value?_of_digit tensDigit isText with ⟨value, valueFound⟩
      exact takes_character valueFound

theorem takes_automaticSteps_of_no_pair (set : CodeSet) {character : Char}
    {rest : List Char} (ascii : isAscii character = true)
    (noPair : ∀ ones behind, rest = ones :: behind → Step.ofPair? character ones = none) :
    Takes set (character :: rest) (automaticSteps set character rest) := by
  rw [automaticSteps_of_no_pair set noPair]
  split
  · rename_i inPairs
    subst inPairs
    rcases exists_value?_ofText ascii with ⟨value, valueFound⟩
    refine takes_switch_character ?_ valueFound
    unfold CodeSet.ofText
    split <;> exact fun equal => CodeSet.noConfusion equal
  · rename_i isText
    split
    · rename_i has
      rcases Option.isSome_iff_exists.mp has with ⟨value, valueFound⟩
      exact takes_character valueFound
    · rename_i lacks
      have lacksValue : set.value? character = none := by
        simpa using lacks
      rcases exists_value?_other ascii isText lacksValue with ⟨value, valueFound⟩
      refine takes_switch_character ?_ valueFound
      cases set <;> exact fun equal => CodeSet.noConfusion equal

/-- Whatever automatic mode takes off ASCII data has one of the two forms. -/
theorem takes_automaticSteps (set : CodeSet) {character : Char} (rest : List Char)
    (ascii : isAscii character = true) :
    Takes set (character :: rest) (automaticSteps set character rest) := by
  cases rest with
  | nil =>
      exact takes_automaticSteps_of_no_pair set ascii
        fun ones behind impossible => nomatch impossible
  | cons ones behind =>
      cases found : Step.ofPair? character ones with
      | none =>
          refine takes_automaticSteps_of_no_pair set ascii ?_
          rintro _ _ ⟨⟩
          exact found
      | some step =>
          exact takes_automaticSteps_of_pair set behind found

/-! ## Whole runs -/

/--
The steps of ASCII data are each encoded in the set in force, never switch to it, and print the
data.
-/
theorem exists_automaticSteps (found : Array Step) (set : CodeSet) (data : List Char)
    (ascii : ∀ character ∈ data, isAscii character = true) :
    ∃ steps, (automaticStepsFrom found set data).toList = found.toList ++ steps ∧
      EncodedFrom set steps ∧ SwitchesAway set steps ∧ steps.flatMap Step.text = data := by
  fun_induction automaticStepsFrom found set data with
  | case1 found set =>
      exact ⟨[], by simp, trivial, trivial, rfl⟩
  | case2 found set character rest ih =>
      have takes := takes_automaticSteps set rest (ascii character List.mem_cons_self)
      -- What is left is an end of the data, so that it is ASCII as well.
      have behindAscii : ∀ later ∈ (automaticSteps set character rest).2,
          isAscii later = true := by
        intro later member
        refine ascii later ?_
        rw [← takes.text_append]
        exact List.mem_append_right _ member
      rcases ih behindAscii with ⟨steps, equal, encoded, away, prints⟩
      refine ⟨(automaticSteps set character rest).1 ++ steps, ?_, ?_, ?_, ?_⟩
      · rw [equal]
        simp
      · exact encodedFrom_append.mpr ⟨takes.encodedFrom, encoded⟩
      · exact switchesAway_append.mpr ⟨takes.switchesAway, away⟩
      · rw [List.flatMap_append, prints, takes.text_append]

theorem EncodedFrom.digits_of_pair {set : CodeSet} {steps : List Step}
    (encoded : EncodedFrom set steps) {tens ones : Char} {value : Nat}
    (member : .pair tens ones value ∈ steps) :
    isDecimalDigit tens = true ∧ isDecimalDigit ones = true := by
  induction steps generalizing set with
  | nil => cases member
  | cons step steps ih =>
      rcases List.mem_cons.mp member with rfl | member
      · obtain ⟨-, high, low, tensDigit, onesDigit, -⟩ := encoded.1
        exact ⟨isDecimalDigit_of_decimalDigit? tensDigit,
          isDecimalDigit_of_decimalDigit? onesDigit⟩
      · exact ih encoded.2 member

/-- Data have a plan in automatic mode unless some character of them is not ASCII. -/
theorem automaticPlan_eq (data : List Char)
    (ascii : ∀ character ∈ data, isAscii character = true) :
    automaticPlan data =
      .ok (automaticStart data,
        (automaticStepsFrom #[] (automaticStart data) data).toList) := by
  have allAscii : data.find? (!isAscii ·) = none := by
    rw [List.find?_eq_none]
    intro character member
    simp [ascii character member]
  simp [automaticPlan, allAscii]

theorem ascii_of_automaticPlan {data : List Char} {plan : CodeSet × List Step}
    (planned : automaticPlan data = .ok plan) :
    ∀ character ∈ data, isAscii character = true := by
  unfold automaticPlan at planned
  split at planned
  · cases planned
  · rename_i noneOther
    intro character member
    simpa using List.find?_eq_none.mp noneOther character member

theorem automaticPlan_run {data : List Char} {set : CodeSet} {steps : List Step}
    (planned : automaticPlan data = .ok (set, steps)) :
    EncodedFrom set steps ∧ SwitchesAway set steps ∧ steps.flatMap Step.text = data := by
  have ascii := ascii_of_automaticPlan planned
  obtain ⟨run, equal, properties⟩ :=
    exists_automaticSteps #[] (automaticStart data) data ascii
  rw [automaticPlan_eq data ascii, equal] at planned
  cases planned
  simpa using properties

/--
In automatic mode a symbol exists exactly for ASCII data.  It is scanned as the data and printed
with them; no step of it switches to the set in force, and its pairs are pairs of digits that stand
side by side in the data.
-/
theorem automatic_scan_eq_data (data : List Char) :
    ((∃ symbol, encode data .automatic = .ok symbol) ↔
        ∀ character ∈ data, isAscii character = true) ∧
      ∀ symbol, encode data .automatic = .ok symbol →
        scan symbol.values.dropLast = some data ∧ symbol.text = data ∧
          ∃ set steps, automaticPlan data = .ok (set, steps) ∧
            symbol = Symbol.ofPlan set steps ∧ SwitchesAway set steps ∧
            steps.flatMap Step.text = data ∧
            ∀ tens ones value, .pair tens ones value ∈ steps →
              isDecimalDigit tens = true ∧ isDecimalDigit ones = true := by
  constructor
  · constructor
    · rintro ⟨symbol, encoded⟩
      rcases encode_eq_ok_iff.mp encoded with ⟨set, steps, planned, -⟩
      exact ascii_of_automaticPlan planned
    · intro ascii
      exact ⟨_, encode_eq_ok_iff.mpr ⟨_, _, automaticPlan_eq data ascii, rfl⟩⟩
  · intro symbol encoded
    rcases encode_eq_ok_iff.mp encoded with ⟨set, steps, planned, rfl⟩
    rcases automaticPlan_run planned with ⟨stepsEncoded, away, prints⟩
    have scanned := (scanFrom_values_eq_text_iff stepsEncoded).mpr away
    rw [prints] at scanned
    refine ⟨?_, prints, set, steps, planned, rfl, away, prints, ?_⟩
    · rw [scan_ofPlan, scanned]
    · intro tens ones value member
      exact stepsEncoded.digits_of_pair member

end LabelPress.Code128
