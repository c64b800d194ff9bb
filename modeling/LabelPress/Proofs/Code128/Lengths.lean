import LabelPress.Proofs.Code128.Plans
import LabelPress.Proofs.Drawing.Painting

/-!
# Automatic mode never makes a symbol longer

In normal mode, printable data without `>` take one value for every character.  In automatic mode a
pair of digits saves a value and a switch costs one.  A switch to set C is paid back at once, as an
even run of four digits or more is behind it, and its pairs pay for the way back as well.

The invariant along a run (`Pays`) counts what is saved before it is used: in set C, a value for
each pair that is at the front of the data, and in a text set the switch that set C needs to return
to it (`saving`).  The main statement (`automatic_length_le_normal`) compares
the symbols of both modes, and what is drawn from them.
-/

namespace LabelPress.Code128

open LabelPress.Text

/-! ## Runs of digits -/

/-- A pair makes the run of digits behind it longer by two. -/
theorem digitRun_of_pair {tens ones : Char} {step : Step} (behind : List Char)
    (found : Step.ofPair? tens ones = some step) :
    digitRun (tens :: ones :: behind) = digitRun behind + 2 := by
  obtain ⟨high, low, tensDigit, onesDigit, -⟩ := ofPair?_eq_some found
  rw [digitRun, List.takeWhile_cons_of_pos (isDecimalDigit_of_decimalDigit? tensDigit),
    List.takeWhile_cons_of_pos (isDecimalDigit_of_decimalDigit? onesDigit)]
  rfl

/-- Where no pair opens the data there is no run of two digits. -/
theorem digitRun_of_no_pair {character : Char} {rest : List Char}
    (noPair : ∀ ones behind, rest = ones :: behind → Step.ofPair? character ones = none) :
    digitRun (character :: rest) / 2 = 0 := by
  have short : digitRun (character :: rest) < 2 := by
    rw [digitRun, List.takeWhile_cons]
    split
    · rename_i digit
      cases rest with
      | nil =>
          exact Nat.one_lt_two
      | cons ones behind =>
          have notDigit : ¬ isDecimalDigit ones = true := by
            intro onesDigit
            obtain ⟨high, tensFound⟩ := exists_decimalDigit? digit
            obtain ⟨low, onesFound⟩ := exists_decimalDigit? onesDigit
            have none := noPair ones behind rfl
            simp [Step.ofPair?, tensFound, onesFound] at none
          rw [List.takeWhile_cons_of_neg notDigit]
          exact Nat.one_lt_two
    · exact Nat.zero_lt_two
  omega

/-! ## What a step costs -/

/--
The values that are saved in advance: one for each pair at the front of the data in set C, and in a
text set the one that a switch back to it takes.
-/
def saving : CodeSet → List Char → Nat
  | .c, data => digitRun data / 2
  | .a, _ | .b, _ => 1

theorem saving_of_text {set : CodeSet} (isText : set ≠ .c) (data : List Char) :
    saving set data = 1 := by
  cases set with
  | a => rfl
  | b => rfl
  | c => exact absurd rfl isText

/-- A character takes at most one step and leaves the set in force. -/
theorem ofCharacter?_toList (set inForce : CodeSet) (character : Char) :
    (Step.ofCharacter? set character).toList.length ≤ 1 ∧
      setAfter inForce (Step.ofCharacter? set character).toList = inForce := by
  rw [Step.ofCharacter?]
  cases set.value? character with
  | none => exact ⟨Nat.zero_le 1, rfl⟩
  | some value => exact ⟨Nat.le_refl 1, rfl⟩

/-- A character that set B has. -/
def InB (character : Char) : Prop :=
  32 ≤ character.toNat ∧ character.toNat < 128

theorem InB.value? {character : Char} (inB : InB character) :
    CodeSet.b.value? character = some (character.toNat - 32) :=
  if_pos inB

theorem InB.ofText {character : Char} (inB : InB character) :
    CodeSet.ofText character = .b :=
  if_neg (Nat.not_lt.mpr inB.1)

theorem InB.isAscii {character : Char} (inB : InB character) : isAscii character = true :=
  decide_eq_true inB.2

/-- What is left of the data is an end of them. -/
theorem Takes.suffix {set : CodeSet} {data : List Char} {taken : List Step × List Char}
    (takes : Takes set data taken) :
    taken.2 <:+ data :=
  ⟨_, takes.text_append⟩

/--
What is taken off the data costs no more steps than it takes characters, if what was saved is spent
and what has to be saved behind it is set aside.  Set A is not reached.
-/
structure Pays (set : CodeSet) (data : List Char) (taken : List Step × List Char) : Prop where
  notA : setAfter set taken.1 ≠ .a
  paid :
    taken.1.length + saving set data + taken.2.length ≤
      data.length + saving (setAfter set taken.1) taken.2

/-- A character of the set in force is paid by itself. -/
theorem pays_character {set : CodeSet} (character : Char) (rest : List Char)
    (notA : set ≠ .a) (isText : set ≠ .c) :
    Pays set (character :: rest) ((Step.ofCharacter? set character).toList, rest) := by
  obtain ⟨short, stays⟩ := ofCharacter?_toList set set character
  constructor
  · rw [stays]
    exact notA
  · rw [stays, saving_of_text isText, saving_of_text isText]
    show (Step.ofCharacter? set character).toList.length + 1 + rest.length ≤ rest.length + 1 + 1
    omega

/-- A pair is paid by its two digits, and the switch in front of it by the pairs behind it. -/
theorem pays_automaticSteps_of_pair {set : CodeSet} {tens ones : Char} {step : Step}
    (behind : List Char) (found : Step.ofPair? tens ones = some step) (notA : set ≠ .a) :
    Pays set (tens :: ones :: behind) (automaticSteps set tens (ones :: behind)) := by
  obtain ⟨high, low, -, -, rfl⟩ := ofPair?_eq_some found
  have run := digitRun_of_pair behind found
  rw [automaticSteps_of_pair set behind found]
  split
  · rename_i inPairs
    subst inPairs
    refine ⟨CodeSet.noConfusion, ?_⟩
    show 1 + digitRun (tens :: ones :: behind) / 2 + behind.length ≤
      behind.length + 2 + digitRun behind / 2
    omega
  · rename_i isText
    split
    · rename_i long
      refine ⟨CodeSet.noConfusion, ?_⟩
      rw [saving_of_text isText]
      show 2 + 1 + behind.length ≤ behind.length + 2 + digitRun behind / 2
      omega
    · exact pays_character tens (ones :: behind) notA isText

/-- The switch from set C to a character is paid by what was saved for it. -/
theorem pays_automaticSteps_of_no_pair {set : CodeSet} {character : Char} {rest : List Char}
    (noPair : ∀ ones behind, rest = ones :: behind → Step.ofPair? character ones = none)
    (notA : set ≠ .a) (inB : InB character) :
    Pays set (character :: rest) (automaticSteps set character rest) := by
  rw [automaticSteps_of_no_pair set noPair]
  cases set with
  | a =>
      exact absurd rfl notA
  | b =>
      have has : (CodeSet.b.value? character).isSome = true := by
        rw [inB.value?]
        rfl
      rw [if_neg CodeSet.noConfusion, if_pos has]
      exact pays_character character rest notA CodeSet.noConfusion
  | c =>
      obtain ⟨short, stays⟩ := ofCharacter?_toList .b .b character
      have nothingSaved : saving .c (character :: rest) = 0 := digitRun_of_no_pair noPair
      have back : setAfter .c (.switch .b :: (Step.ofCharacter? .b character).toList) = .b := stays
      rw [if_pos rfl, inB.ofText]
      constructor
      · rw [back]
        exact CodeSet.noConfusion
      · rw [back, nothingSaved]
        show _ + 1 + 0 + rest.length ≤ rest.length + 1 + 1
        omega

/-- Whatever automatic mode takes off data that set B has is paid. -/
theorem pays_automaticSteps {set : CodeSet} {character : Char} (rest : List Char)
    (notA : set ≠ .a) (inB : InB character) :
    Pays set (character :: rest) (automaticSteps set character rest) := by
  cases rest with
  | nil =>
      exact pays_automaticSteps_of_no_pair (fun _ _ impossible => nomatch impossible) notA inB
  | cons ones behind =>
      cases found : Step.ofPair? character ones with
      | none =>
          refine pays_automaticSteps_of_no_pair ?_ notA inB
          rintro _ _ ⟨⟩
          exact found
      | some step =>
          exact pays_automaticSteps_of_pair behind found notA

/-! ## Whole runs -/

/-- A run has at most one step for each character and one to return, less what was saved. -/
theorem size_automaticStepsFrom_le (found : Array Step) {set : CodeSet} {data : List Char}
    (notA : set ≠ .a) (inB : ∀ character ∈ data, InB character) :
    (automaticStepsFrom found set data).size + saving set data ≤
      found.size + data.length + 1 := by
  fun_induction automaticStepsFrom found set data with
  | case1 found set =>
      have spare : saving set [] ≤ 1 := by
        cases set <;> decide
      exact Nat.add_le_add_left spare found.size
  | case2 found set character rest ih =>
      have first := inB character List.mem_cons_self
      have pays := pays_automaticSteps rest notA first
      have takes := takes_automaticSteps set rest first.isAscii
      have remaining := ih pays.notA fun later member => inB later (takes.suffix.mem member)
      have paid := pays.paid
      have sizes : (found ++ (automaticSteps set character rest).1).size =
          found.size + (automaticSteps set character rest).1.length := by
        rw [← Array.length_toList, Array.toList_appendList, List.length_append,
          Array.length_toList]
      omega

/-- In set C automatic mode begins only with data that open with a pair. -/
theorem saving_automaticStart_pos {data : List Char} (inB : ∀ character ∈ data, InB character) :
    automaticStart data ≠ .a ∧ 0 < saving (automaticStart data) data := by
  unfold automaticStart
  dsimp only
  split
  · rename_i manyDigits
    refine ⟨CodeSet.noConfusion, ?_⟩
    show 0 < digitRun data / 2
    omega
  · cases data with
    | nil =>
        exact ⟨CodeSet.noConfusion, Nat.one_pos⟩
    | cons character rest =>
        dsimp only
        rw [(inB character List.mem_cons_self).ofText]
        exact ⟨CodeSet.noConfusion, Nat.one_pos⟩

/--
The symbol of automatic mode has a start value, at most one value for each character, and a check
value.
-/
theorem exists_automatic_length_le {data : List Char} (inB : ∀ character ∈ data, InB character) :
    ∃ symbol, encode data .automatic = .ok symbol ∧ symbol.values.length ≤ data.length + 2 := by
  obtain ⟨notA, saved⟩ := saving_automaticStart_pos inB
  have steps := size_automaticStepsFrom_le #[] notA inB
  have planned := automaticPlan_eq data fun character member => (inB character member).isAscii
  refine ⟨_, encode_eq_ok_iff.mpr ⟨_, _, planned, rfl⟩, ?_⟩
  rw [Symbol.ofPlan, List.length_append, List.length_cons, List.length_map, Array.length_toList]
  simp only [Array.size_empty, List.length_singleton] at steps ⊢
  omega

/-- A character that stands for itself in normal mode, as set B has it and it is no escape. -/
def Plain (character : Char) : Prop :=
  InB character ∧ character ≠ '>'

/-- The step of a character in set B. -/
def stepInB (character : Char) : Step :=
  .single character (character.toNat - 32)

/-- Plain data are the written form of their own steps. -/
theorem flatMap_written_stepInB {data : List Char} (plain : ∀ character ∈ data, Plain character) :
    (data.map stepInB).flatMap Step.written = data := by
  induction data with
  | nil =>
      rfl
  | cons character data ih =>
      obtain ⟨first, later⟩ := List.forall_mem_cons.mp plain
      have alone : (stepInB character).written = [character] := if_neg first.2
      rw [List.map_cons, List.flatMap_cons, alone, ih later]
      rfl

theorem encodedFrom_stepInB {data : List Char} (plain : ∀ character ∈ data, Plain character) :
    EncodedFrom .b (data.map stepInB) := by
  induction data with
  | nil =>
      exact trivial
  | cons character data ih =>
      obtain ⟨first, later⟩ := List.forall_mem_cons.mp plain
      exact ⟨first.1.value?, ih later⟩

/-- Plain data open in set B, and none of them is taken off for that. -/
theorem opening_of_plain {data : List Char} (plain : ∀ character ∈ data, Plain character) :
    opening data = (.b, data) := by
  unfold opening
  split
  · exact absurd rfl (plain '>' List.mem_cons_self).2
  · rfl

/-- The symbol of normal mode has a start value, a value for each character, and a check value. -/
theorem exists_normal_length {data : List Char} (plain : ∀ character ∈ data, Plain character) :
    ∃ symbol, encode data .normal = .ok symbol ∧ symbol.values.length = data.length + 2 := by
  have run := normalRun_of_encodedFrom (encodedFrom_stepInB plain)
  rw [flatMap_written_stepInB plain] at run
  have planned : plan data .normal = .ok (.b, data.map stepInB) := by
    rw [plan, normalPlan_eq, opening_of_plain plain, run.normalStepsFrom_eq]
    simp [Except.map]
  refine ⟨_, encode_eq_ok_iff.mpr ⟨_, _, planned, rfl⟩, ?_⟩
  simp [Symbol.ofPlan]

/-! ## Drawn symbols -/

/-- A symbol is drawn exactly if its bars have at most `maxDots` dots on either side. -/
theorem exists_code128Stamp_iff
    {text : String}
    {mode : Code128Mode}
    {symbol : Symbol}
    (encoded : encode text.toList mode = .ok symbol)
    (font : Option Font)
    (layout : BarLayout) :
    (∃ stamp, Drawing.code128Stamp font text layout mode = .ok stamp) ↔
      symbol.modules.length * max layout.moduleWidth 1 ≤ maxDots ∧
        max layout.height 1 ≤ maxDots := by
  have settled := Drawing.settled_barStamp font layout symbol.modules symbol.text
  rw [Drawing.oversizeFault?] at settled
  rw [Drawing.code128Stamp, encoded]
  dsimp only at settled ⊢
  split at settled
  · rename_i fits
    exact ⟨fun _ => fits, fun _ => settled⟩
  · rename_i tooLarge
    refine ⟨?_, fun fits => absurd fits tooLarge⟩
    rintro ⟨stamp, drawn⟩
    rw [drawn] at settled
    cases settled

/-- A symbol with more values has more modules. -/
theorem length_modules_le
    {data : List Char}
    {mode otherMode : Code128Mode}
    {symbol other : Symbol}
    (encoded : encode data mode = .ok symbol)
    (otherEncoded : encode data otherMode = .ok other)
    (lengthLe : symbol.values.length ≤ other.values.length) :
    symbol.modules.length ≤ other.modules.length := by
  rw [length_of_shows (shows_modules (value_lt_of_encode encoded)),
    length_of_shows (shows_modules (value_lt_of_encode otherEncoded))]
  exact Nat.add_le_add_right (Nat.mul_le_mul_left 11 lengthLe) _

/--
Automatic mode never makes a symbol longer.  Printable ASCII characters without `>` are encoded in
both modes.  In normal mode there is a value for each of them, besides the start value and the check
value; in automatic mode there are no more values, and no more modules.  So wherever the bars of
normal mode can be drawn, those of automatic mode can be drawn as well.
-/
theorem automatic_length_le_normal
    (text : String)
    (printable : ∀ character ∈ text.toList, 32 ≤ character.toNat ∧ character.toNat ≤ 127)
    (noEscape : '>' ∉ text.toList) :
    ∃ normal automatic, encode text.toList .normal = .ok normal ∧
      encode text.toList .automatic = .ok automatic ∧
      normal.values.length = text.toList.length + 2 ∧
      automatic.values.length ≤ normal.values.length ∧
      automatic.modules.length ≤ normal.modules.length ∧
      ∀ font layout,
        (∃ stamp, Drawing.code128Stamp font text layout .normal = .ok stamp) →
          ∃ stamp, Drawing.code128Stamp font text layout .automatic = .ok stamp := by
  have plain : ∀ character ∈ text.toList, Plain character := by
    intro character member
    obtain ⟨lower, upper⟩ := printable character member
    refine ⟨⟨lower, Nat.lt_succ_of_le upper⟩, ?_⟩
    rintro rfl
    exact noEscape member
  obtain ⟨normal, normalEncoded, length⟩ := exists_normal_length plain
  obtain ⟨automatic, encoded, lengthLe⟩ :=
    exists_automatic_length_le fun character member => (plain character member).1
  rw [← length] at lengthLe
  have modulesLe := length_modules_le encoded normalEncoded lengthLe
  refine ⟨normal, automatic, normalEncoded, encoded, length, lengthLe, modulesLe, ?_⟩
  intro font layout drawn
  obtain ⟨widthFits, heightFits⟩ := (exists_code128Stamp_iff normalEncoded font layout).mp drawn
  refine (exists_code128Stamp_iff encoded font layout).mpr ⟨?_, heightFits⟩
  exact Nat.le_trans (Nat.mul_le_mul_right _ modulesLe) widthFits

/-- An odd run of digits at the front and an even one at the end. -/
theorem automatic_length_le_normal_of_two_runs :
    let text := "12345A1234"
    let layout : BarLayout := ⟨.normal, 10, 100, false, false⟩
    ((∀ character ∈ text.toList, 32 ≤ character.toNat ∧ character.toNat ≤ 127) ∧
        '>' ∉ text.toList) ∧
      ∃ normal automatic, encode text.toList .normal = .ok normal ∧
        encode text.toList .automatic = .ok automatic ∧ normal.values.length = 12 ∧
          automatic.values.length ≤ normal.values.length ∧
          ((∃ stamp, Drawing.code128Stamp none text layout .normal = .ok stamp) ∧
            ∃ stamp, Drawing.code128Stamp none text layout .automatic = .ok stamp) := by
  intro text layout
  have printable : ∀ character ∈ text.toList,
      32 ≤ character.toNat ∧ character.toNat ≤ 127 := by
    have all : text.toList.all fun character =>
        32 ≤ character.toNat ∧ character.toNat ≤ 127 := by decide
    intro character member
    exact of_decide_eq_true (List.all_eq_true.mp all character member)
  have noEscape : '>' ∉ text.toList := by decide
  obtain ⟨normal, automatic, normalEncoded, encoded, length, lengthLe, -, drawn⟩ :=
    automatic_length_le_normal text printable noEscape
  have twelve : normal.values.length = 12 := length.trans (by decide)
  have normalDrawn : ∃ stamp, Drawing.code128Stamp none text layout .normal = .ok stamp := by
    rw [exists_code128Stamp_iff normalEncoded,
      length_of_shows (shows_modules (value_lt_of_encode normalEncoded)), twelve]
    decide
  exact ⟨⟨printable, noEscape⟩, normal, automatic, normalEncoded, encoded, twelve, lengthLe,
    normalDrawn, drawn none layout normalDrawn⟩

end LabelPress.Code128
