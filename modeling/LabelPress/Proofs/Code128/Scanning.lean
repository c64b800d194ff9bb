import LabelPress.Proofs.Text.Digits
import LabelPress.Symbology.Code128

/-!
# Scanning Code 128 symbols

What the values of a symbol say to a scanner.  The start value puts a set into force; from there
on a value prints characters, switches to another set, or means nothing in the set in force.  One
number may do all of this: 99 prints a pair of nines in set C and switches to set C elsewhere, 100
and 101 switch only in the sets to which they do not lead.

A scanner and an encoder carry the set in force side by side.  The main statement
(`scanFrom_values_eq_text_iff`) says when they stay together: steps whose values are those of the
sets in force are scanned as the text they print exactly if none of them switches to the set that
is in force already.
-/

namespace LabelPress.Code128

open LabelPress.Text

/-! ## The scanner -/

/-- What a value says to a scanner. -/
inductive Meaning where
  /-- It prints characters; the function character FNC1 prints none. -/
  | text (characters : List Char)
  /-- It puts another set into force. -/
  | switch (set : CodeSet)
  deriving DecidableEq, Repr

/-- What a value means while a set is in force; every other value cannot be read. -/
def CodeSet.meaning? : CodeSet → Nat → Option Meaning
  | .a, value =>
    if value < 64 then some (.text [Char.ofNat (value + 32)])
    else if value < 96 then some (.text [Char.ofNat (value - 64)])
    else if value = 99 then some (.switch .c)
    else if value = 100 then some (.switch .b)
    else if value = 102 then some (.text [])
    else none
  | .b, value =>
    if value < 96 then some (.text [Char.ofNat (value + 32)])
    else if value = 99 then some (.switch .c)
    else if value = 101 then some (.switch .a)
    else if value = 102 then some (.text [])
    else none
  | .c, value =>
    if value < 100 then
      some (.text [Char.ofNat ('0'.toNat + value / 10), Char.ofNat ('0'.toNat + value % 10)])
    else if value = 100 then some (.switch .b)
    else if value = 101 then some (.switch .a)
    else if value = 102 then some (.text [])
    else none

/-- The set in which a symbol with this start value opens. -/
def CodeSet.ofStart? : Nat → Option CodeSet
  | 103 => some .a
  | 104 => some .b
  | 105 => some .c
  | _ => none

@[simp]
theorem CodeSet.ofStart?_start (set : CodeSet) :
    CodeSet.ofStart? set.start = some set := by
  cases set <;> rfl

/-- The text of values that are scanned from a set on, if all of them can be read. -/
def scanFrom (set : CodeSet) : List Nat → Option (List Char)
  | [] => some []
  | value :: values =>
    match set.meaning? value with
    | some (.text characters) => (scanFrom set values).map (characters ++ ·)
    | some (.switch target) => scanFrom target values
    | none => none

/-- The text of a start value and the values behind it, if all of them can be read. -/
def scan : List Nat → Option (List Char)
  | [] => none
  | first :: values => (CodeSet.ofStart? first).bind fun set => scanFrom set values

/-- The values of a symbol without its check value are scanned step by step. -/
@[simp]
theorem scan_ofPlan (set : CodeSet) (steps : List Step) :
    scan (Symbol.ofPlan set steps).values.dropLast =
      scanFrom set (steps.map Step.value) := by
  rw [Symbol.ofPlan, List.dropLast_concat]
  simp [scan]

/-- The start set and the steps of data in a mode. -/
def plan (data : List Char) : Code128Mode → Except Fault (CodeSet × List Step)
  | .normal => normalPlan data
  | .automatic => automaticPlan data

/-- A symbol of data is that of their plan. -/
theorem encode_eq_ok_iff {data : List Char} {mode : Code128Mode} {symbol : Symbol} :
    encode data mode = .ok symbol ↔
      ∃ set steps, plan data mode = .ok (set, steps) ∧ symbol = Symbol.ofPlan set steps := by
  have unfolded :
      encode data mode = (plan data mode).map fun plan => Symbol.ofPlan plan.1 plan.2 := by
    cases mode <;> rfl
  rw [unfolded]
  cases plan data mode with
  | error fault =>
      constructor
      · intro impossible
        cases impossible
      · rintro ⟨set, steps, impossible, -⟩
        cases impossible
  | ok found =>
      constructor
      · intro encoded
        cases encoded
        exact ⟨found.1, found.2, rfl, rfl⟩
      · rintro ⟨set, steps, planned, rfl⟩
        cases planned
        rfl

/-! ## Steps and their meaning -/

/-- What a step is meant to say to a scanner. -/
def Step.meaning : Step → Meaning
  | .single character _ => .text [character]
  | .pair tens ones _ => .text [tens, ones]
  | .function1 => .text []
  | .switch set => .switch set

/-- A step whose value is the one that a set has for its characters. -/
def Step.EncodedIn (set : CodeSet) : Step → Prop
  | .single character value => set.value? character = some value
  | .pair tens ones value =>
    set = .c ∧
      ∃ high low, decimalDigit? tens = some high ∧ decimalDigit? ones = some low ∧
        value = 10 * high + low
  | .function1 => True
  | .switch _ => True

/-- A character that stands for itself is encoded in the set in force. -/
theorem encodedIn_of_ofCharacter? {set : CodeSet} {character : Char} {step : Step}
    (found : Step.ofCharacter? set character = some step) :
    step.EncodedIn set := by
  rcases Option.map_eq_some_iff.mp found with ⟨value, valueFound, rfl⟩
  exact valueFound

theorem text_ne_nil_of_ofCharacter? {set : CodeSet} {character : Char} {step : Step}
    (found : Step.ofCharacter? set character = some step) :
    step.text ≠ [] := by
  rcases Option.map_eq_some_iff.mp found with ⟨value, -, rfl⟩
  exact List.cons_ne_nil _ _

/-- Two characters make a pair if they are digits, and the pair has their value. -/
theorem ofPair?_eq_some {tens ones : Char} {step : Step}
    (found : Step.ofPair? tens ones = some step) :
    ∃ high low, decimalDigit? tens = some high ∧ decimalDigit? ones = some low ∧
      step = .pair tens ones (10 * high + low) := by
  unfold Step.ofPair? at found
  split at found
  · rename_i high low tensDigit onesDigit
    cases found
    exact ⟨high, low, tensDigit, onesDigit, rfl⟩
  · cases found

/-- A pair of digits is encoded in set C. -/
theorem encodedIn_of_ofPair? {tens ones : Char} {step : Step}
    (found : Step.ofPair? tens ones = some step) :
    step.EncodedIn .c := by
  rcases ofPair?_eq_some found with ⟨high, low, tensDigit, onesDigit, rfl⟩
  exact ⟨rfl, high, low, tensDigit, onesDigit, rfl⟩

theorem text_ne_nil_of_ofPair? {tens ones : Char} {step : Step}
    (found : Step.ofPair? tens ones = some step) :
    step.text ≠ [] := by
  rcases ofPair?_eq_some found with ⟨high, low, -, -, rfl⟩
  exact List.cons_ne_nil _ _

/-- A step that prints something is no switch. -/
theorem ne_switch_of_text {step : Step} (prints : step.text ≠ []) (target : CodeSet) :
    step ≠ .switch target := by
  rintro rfl
  exact prints rfl

/-- The value of a character says that character in the set from which it is taken. -/
theorem CodeSet.meaning?_of_value? {set : CodeSet} {character : Char} {value : Nat}
    (found : set.value? character = some value) :
    set.meaning? value = some (.text [character]) := by
  cases set with
  | a =>
      simp only [CodeSet.value?] at found
      split at found
      · rename_i control
        cases found
        have notLetter : ¬ character.toNat + 64 < 64 := by omega
        have isControl : character.toNat + 64 < 96 := by omega
        simp [CodeSet.meaning?, notLetter, isControl]
      · split at found
        · rename_i notControl upper
          cases found
          have isLetter : character.toNat - 32 < 64 := by omega
          have restored : character.toNat - 32 + 32 = character.toNat := by omega
          simp [CodeSet.meaning?, isLetter, restored]
        · cases found
  | b =>
      simp only [CodeSet.value?] at found
      split at found
      · rename_i range
        cases found
        have isLetter : character.toNat - 32 < 96 := by omega
        have restored : character.toNat - 32 + 32 = character.toNat := by omega
        simp [CodeSet.meaning?, isLetter, restored]
      · cases found
  | c =>
      cases found

/-- A set reads the value of another set as a switch to that set. -/
theorem CodeSet.meaning?_switchValue {set target : CodeSet} (away : target ≠ set) :
    set.meaning? target.switchValue = some (.switch target) := by
  cases set <;> cases target <;> first | rfl | exact absurd rfl away

/-- A step says what it is meant to, unless it switches to the set in force. -/
theorem Step.EncodedIn.meaning?_value {set : CodeSet} {step : Step}
    (encoded : step.EncodedIn set) (away : step ≠ .switch set) :
    set.meaning? step.value = some step.meaning := by
  cases step with
  | single character value =>
      exact CodeSet.meaning?_of_value? encoded
  | pair tens ones value =>
      rcases encoded with ⟨rfl, high, low, tensDigit, onesDigit, rfl⟩
      rcases eq_ofNat_of_decimalDigit? tensDigit with ⟨highBound, tensEq⟩
      rcases eq_ofNat_of_decimalDigit? onesDigit with ⟨lowBound, onesEq⟩
      have isPair : 10 * high + low < 100 := by omega
      have quotient : (10 * high + low) / 10 = high := by omega
      have remainder : (10 * high + low) % 10 = low := by omega
      simp only [CodeSet.meaning?, Step.value, Step.meaning, isPair, if_true,
        quotient, remainder, tensEq, onesEq]
  | function1 =>
      cases set <;> rfl
  | switch target =>
      refine CodeSet.meaning?_switchValue ?_
      intro same
      exact away (congrArg Step.switch same)

/-! ## Runs of steps -/

/-- Steps of which each is encoded in the set that is in force when it is reached. -/
def EncodedFrom (set : CodeSet) : List Step → Prop
  | [] => True
  | step :: steps => step.EncodedIn set ∧ EncodedFrom (step.setAfter set) steps

/-- Steps of which none switches to the set that is in force when it is reached. -/
def SwitchesAway (set : CodeSet) : List Step → Prop
  | [] => True
  | step :: steps => step ≠ .switch set ∧ SwitchesAway (step.setAfter set) steps

theorem encodedFrom_append {set : CodeSet} {left right : List Step} :
    EncodedFrom set (left ++ right) ↔
      EncodedFrom set left ∧ EncodedFrom (setAfter set left) right := by
  induction left generalizing set with
  | nil =>
      simp [EncodedFrom, setAfter]
  | cons step left ih =>
      simp [EncodedFrom, setAfter, ih, and_assoc]

theorem switchesAway_append {set : CodeSet} {left right : List Step} :
    SwitchesAway set (left ++ right) ↔
      SwitchesAway set left ∧ SwitchesAway (setAfter set left) right := by
  induction left generalizing set with
  | nil =>
      simp [SwitchesAway, setAfter]
  | cons step left ih =>
      simp [SwitchesAway, setAfter, ih, and_assoc]

/-- A step that says what it is meant to prints its text in front of what is behind it. -/
theorem scanFrom_cons {set : CodeSet} {step : Step} (values : List Nat)
    (meant : set.meaning? step.value = some step.meaning) :
    scanFrom set (step.value :: values) =
      (scanFrom (step.setAfter set) values).map (step.text ++ ·) := by
  rw [scanFrom, meant]
  cases step with
  | single character value => rfl
  | pair tens ones value => rfl
  | function1 => rfl
  | switch target => simp [Step.meaning, Step.setAfter, Step.text]

/-- A switch to the set in force is no text, or the two nines of a pair. -/
theorem scanFrom_switchValue (set : CodeSet) (values : List Nat) :
    scanFrom set (set.switchValue :: values) = none ∨
      scanFrom set (set.switchValue :: values) =
        (scanFrom set values).map (['9', '9'] ++ ·) := by
  cases set with
  | a => exact Or.inl rfl
  | b => exact Or.inl rfl
  | c => exact Or.inr rfl

/-- A scanner never sees less text than the steps print. -/
theorem length_text_le_of_scanFrom {set : CodeSet} {steps : List Step}
    {text : List Char} (encoded : EncodedFrom set steps)
    (scanned : scanFrom set (steps.map Step.value) = some text) :
    (steps.flatMap Step.text).length ≤ text.length := by
  induction steps generalizing set text with
  | nil =>
      exact Nat.zero_le _
  | cons step steps ih =>
      rcases encoded with ⟨stepEncoded, restEncoded⟩
      rw [List.map_cons] at scanned
      by_cases idle : step = .switch set
      · subst idle
        rcases scanFrom_switchValue set (steps.map Step.value) with unread | nines
        · rw [Step.value, unread] at scanned
          cases scanned
        · rw [Step.value, nines] at scanned
          rcases Option.map_eq_some_iff.mp scanned with ⟨rest, restScanned, rfl⟩
          have bound := ih restEncoded restScanned
          simp only [List.flatMap_cons, Step.text, List.nil_append,
            List.length_append, List.length_cons]
          omega
      · rw [scanFrom_cons _ (stepEncoded.meaning?_value idle)] at scanned
        rcases Option.map_eq_some_iff.mp scanned with ⟨rest, restScanned, rfl⟩
        have bound := ih restEncoded restScanned
        simp only [List.flatMap_cons, List.length_append]
        omega

/--
Steps are scanned as the text they print exactly if none of them switches to the set in force.
-/
theorem scanFrom_values_eq_text_iff {set : CodeSet} {steps : List Step}
    (encoded : EncodedFrom set steps) :
    scanFrom set (steps.map Step.value) = some (steps.flatMap Step.text) ↔
      SwitchesAway set steps := by
  induction steps generalizing set with
  | nil =>
      simp [scanFrom, SwitchesAway]
  | cons step steps ih =>
      rcases encoded with ⟨stepEncoded, restEncoded⟩
      rw [List.map_cons, List.flatMap_cons]
      by_cases idle : step = .switch set
      · subst idle
        constructor
        · intro scanned
          rcases scanFrom_switchValue set (steps.map Step.value) with unread | nines
          · rw [Step.value, unread] at scanned
            cases scanned
          · rw [Step.value, nines] at scanned
            rcases Option.map_eq_some_iff.mp scanned with ⟨rest, restScanned, equal⟩
            -- The two nines make the scanned text longer than the text of the steps.
            have bound := length_text_le_of_scanFrom restEncoded restScanned
            have lengths := congrArg List.length equal
            simp only [Step.text, List.nil_append, List.length_append,
              List.length_cons] at lengths
            omega
        · intro away
          exact absurd rfl away.1
      · rw [scanFrom_cons _ (stepEncoded.meaning?_value idle),
          Option.map_eq_some_iff]
        constructor
        · rintro ⟨rest, restScanned, equal⟩
          have same : rest = steps.flatMap Step.text :=
            List.append_cancel_left equal
          rw [same] at restScanned
          exact ⟨idle, (ih restEncoded).mp restScanned⟩
        · rintro ⟨-, away⟩
          exact ⟨_, (ih restEncoded).mpr away, rfl⟩

end LabelPress.Code128
