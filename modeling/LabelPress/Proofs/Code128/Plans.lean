import LabelPress.Proofs.Code128.NormalMode
import LabelPress.Proofs.Code128.Symbols

/-!
# Writing plans as data for normal mode

A plan is a start set and a row of steps, each of them encoded in the set that is in force there.
Normal mode can express every plan: the start set, the switches and FNC1 are written as
invocations, `><` stands for the character `>`, and all else for itself (`writtenPlan`).

The escape character opens the data, invokes and stands for itself.  Data are taken step by step
nevertheless: whatever stands behind a written step, just this step is taken off
(`exists_written_eq_cons`).  So written data are taken into the plan that was written
(`normalPlan_writtenPlan_iff`), and the main statement (`encode_writtenPlan`) is that their symbol
has its values and its text.
-/

namespace LabelPress.Code128

open LabelPress.Text

/-! ## Writing -/

namespace CodeSet

/-- The character behind `>` that begins a symbol in a set. -/
def startMark : CodeSet → Char
  | a => '9'
  | b => ':'
  | c => ';'

/-- The character behind `>` that switches to a set. -/
def switchMark : CodeSet → Char
  | a => '7'
  | b => '6'
  | c => '5'

@[simp]
theorem startSet?_startMark (set : CodeSet) : startSet? set.startMark = some set := by
  cases set <;> rfl

@[simp]
theorem switch?_switchMark (set : CodeSet) : switch? set.switchMark = some set := by
  cases set <;> rfl

end CodeSet

/-- A step in data for normal mode. -/
def Step.written : Step → List Char
  | .single character _ => if character = '>' then ['>', '<'] else [character]
  | .pair tens ones _ => [tens, ones]
  | .function1 => ['>', '8']
  | .switch set => ['>', set.switchMark]

/-- A start set and steps in data for normal mode. -/
def writtenPlan (set : CodeSet) (steps : List Step) : List Char :=
  '>' :: set.startMark :: steps.flatMap Step.written

/-! ## Taking written steps -/

/-- The escape character is the only one that does not stand for itself. -/
theorem normalStep_of_ne {set : CodeSet} {character : Char} (plain : character ≠ '>')
    (rest : List Char) :
    normalStep set character rest = plainStep set character rest := by
  unfold normalStep
  split
  · exact absurd rfl plain
  · rfl

theorem ofCharacter?_of_value? {set : CodeSet} {character : Char} {value : Nat}
    (found : set.value? character = some value) :
    Step.ofCharacter? set character = some (.single character value) := by
  rw [Step.ofCharacter?, found, Option.map_some]

theorem plainStep_of_value? {set : CodeSet} {character : Char} {value : Nat}
    (found : set.value? character = some value) (rest : List Char) :
    plainStep set character rest = .ok (.single character value, rest) := by
  have taken := ofCharacter?_of_value? found
  cases set with
  | a =>
      simp [plainStep, taken]
  | b =>
      simp [plainStep, taken]
  | c =>
      cases found

/-- Of data that begin with a written step, this step is taken off, whatever stands behind it. -/
theorem exists_written_eq_cons {set : CodeSet} {step : Step} (encoded : step.EncodedIn set) :
    ∃ character rest, step.written = character :: rest ∧
      ∀ behind, normalStep set character (rest ++ behind) = .ok (step, behind) := by
  cases step with
  | single character value =>
      have found : set.value? character = some value := encoded
      by_cases escape : character = '>'
      · obtain rfl := escape
        refine ⟨'>', ['<'], rfl, ?_⟩
        intro behind
        simp [normalStep, switch?, ofCharacter?_of_value? found]
      · refine ⟨character, [], if_neg escape, ?_⟩
        intro behind
        rw [List.nil_append, normalStep_of_ne escape, plainStep_of_value? found]
  | pair tens ones value =>
      rcases encoded with ⟨rfl, high, low, tensDigit, onesDigit, rfl⟩
      have plain : tens ≠ '>' := by
        rintro rfl
        cases tensDigit
      refine ⟨tens, [ones], rfl, ?_⟩
      intro behind
      rw [normalStep_of_ne plain]
      simp [plainStep, Step.ofPair?, tensDigit, onesDigit]
  | function1 =>
      exact ⟨'>', ['8'], rfl, fun behind => rfl⟩
  | switch target =>
      refine ⟨'>', [target.switchMark], rfl, ?_⟩
      intro behind
      exact normalStep_eq_switch_iff.mpr ⟨_, rfl, rfl, CodeSet.switch?_switchMark target⟩

/-- Written steps are taken one by one. -/
theorem normalRun_of_encodedFrom {set : CodeSet} {steps : List Step}
    (encoded : EncodedFrom set steps) :
    NormalRun set (steps.flatMap Step.written) steps := by
  induction steps generalizing set with
  | nil =>
      exact .done
  | cons step steps ih =>
      obtain ⟨character, rest, written, taken⟩ := exists_written_eq_cons encoded.1
      rw [List.flatMap_cons, written]
      exact .step (taken _) (ih encoded.2)

/-- The steps of a run are what data are taken into. -/
theorem NormalRun.normalStepsFrom_eq {set : CodeSet} {data : List Char} {steps : List Step}
    (run : NormalRun set data steps) (found : Array Step) :
    normalStepsFrom found set data = .ok (found ++ steps.toArray) := by
  induction run generalizing found with
  | done =>
      simp [normalStepsFrom]
  | step taken later ih =>
      rw [normalStepsFrom]
      split
      · rename_i takenAgain
        rw [taken] at takenAgain
        cases takenAgain
        rw [ih]
        simp
      · rename_i failed
        rw [taken] at failed
        cases failed

theorem opening_writtenPlan (set : CodeSet) (steps : List Step) :
    opening (writtenPlan set steps) = (set, steps.flatMap Step.written) := by
  simp [opening, writtenPlan]

/-- Exactly the plans whose steps are encoded in the sets in force are taken as they are written. -/
theorem normalPlan_writtenPlan_iff {set : CodeSet} {steps : List Step} :
    normalPlan (writtenPlan set steps) = .ok (set, steps) ↔ EncodedFrom set steps := by
  constructor
  · intro planned
    exact (normalRun_of_normalPlan planned).2.encodedFrom
  · intro encoded
    have run := normalRun_of_encodedFrom encoded
    rw [normalPlan_eq, opening_writtenPlan, run.normalStepsFrom_eq]
    simp [Except.map]

/--
Normal mode can express every plan, also one that switches to the set in force.  The plan is written
as data; they are encoded, in its start value and the values of its steps, and their text is what
its steps print.
-/
theorem encode_writtenPlan
    {set : CodeSet}
    {steps : List Step}
    (encoded : EncodedFrom set steps) :
    ∃ symbol, encode (writtenPlan set steps) .normal = .ok symbol ∧
      symbol.values.dropLast = set.start :: steps.map Step.value ∧
        symbol.text = steps.flatMap Step.text := by
  refine ⟨Symbol.ofPlan set steps, ?_, ?_, rfl⟩
  · exact encode_eq_ok_iff.mpr ⟨set, steps, normalPlan_writtenPlan_iff.mpr encoded, rfl⟩
  · rw [Symbol.ofPlan, List.dropLast_concat]

/-- A plan with steps of every kind, in which a digit stands behind the literal `>`. -/
theorem encode_writtenPlan_of_every_kind :
    let steps : List Step :=
      [.pair '1' '2' 12, .function1, .switch .b, .single '>' 30, .single '5' 21, .switch .a,
        .single '\n' 74]
    EncodedFrom .c steps ∧ writtenPlan .c steps = ">;12>8>6><5>7\n".toList ∧
      ∃ symbol, encode ">;12>8>6><5>7\n".toList .normal = .ok symbol ∧
        symbol.values.dropLast = [105, 12, 102, 100, 30, 21, 101, 74] ∧
          symbol.text = "12>5\n".toList := by
  intro steps
  have encoded : EncodedFrom .c steps :=
    ⟨⟨rfl, 1, 2, rfl, rfl, rfl⟩, trivial, trivial, rfl, rfl, trivial, rfl, trivial⟩
  exact ⟨encoded, by decide, encode_writtenPlan encoded⟩

end LabelPress.Code128
