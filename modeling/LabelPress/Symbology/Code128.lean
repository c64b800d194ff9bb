import LabelPress.Label
import LabelPress.Text.Integer

/-!
# Code 128

A symbol is a row of values: a start value, the values of the data, and a check value; a fixed
stop pattern follows.  Data are encoded in three code sets.  Sets A and B give every character a
value of its own, set C a pair of digits; a value may also switch to another set.  Encoding makes
the data into steps, each of which has one value and may print characters.

In normal mode the data choose the set themselves by invocations that open with `>`.  In automatic
mode the sets are chosen so that digits in long runs are encoded in pairs.
-/

namespace LabelPress.Code128

open LabelPress.Text

/-- The three code sets. -/
inductive CodeSet where
  /-- Control characters, upper case letters, digits and signs. -/
  | a
  /-- Letters of both cases, digits and signs. -/
  | b
  /-- Pairs of digits. -/
  | c
  deriving DecidableEq, Repr, Inhabited

namespace CodeSet

/-- The start value of a symbol that opens in this set. -/
def start : CodeSet → Nat
  | a => 103
  | b => 104
  | c => 105

/-- The value that switches to this set. -/
def switchValue : CodeSet → Nat
  | a => 101
  | b => 100
  | c => 99

/-- The value of a character. -/
def value? (set : CodeSet) (character : Char) : Option Nat :=
  let code := character.toNat
  match set with
  | a => if code < 32 then some (code + 64) else if code < 96 then some (code - 32) else none
  | b => if 32 ≤ code ∧ code < 128 then some (code - 32) else none
  | c => none

/-- The set in which a character is printed that stands for itself. -/
def ofText (character : Char) : CodeSet :=
  if character.toNat < 32 then a else b

/-- The set to go to from a text set that lacks a character. -/
def other : CodeSet → CodeSet
  | a => b
  | b | c => a

end CodeSet

/-- A reason for which data cannot be encoded. -/
inductive Fault where
  /-- Set C has no value for this character alone. -/
  | needsPair (character : Char)
  /-- Set C has no value for the greater-than sign. -/
  | literalInPairs
  /-- The set in force has no value for this character. -/
  | unencodable (character : Char)
  deriving DecidableEq, Repr

/-- The text of a fault. -/
def Fault.message : Fault → String
  | needsPair character =>
    "subset C needs digit pairs, found '" ++ String.singleton character ++ "'"
  | literalInPairs => "'>' cannot be encoded in subset C"
  | unencodable character =>
    "character '" ++ String.singleton character ++ "' cannot be encoded in Code 128"

/-- A step of an encoding. -/
inductive Step where
  /-- A single character with its value in the set in force. -/
  | single (character : Char) (value : Nat)
  /-- A pair of digits. -/
  | pair (tens ones : Char) (value : Nat)
  /-- The function character FNC1. -/
  | function1
  /-- A switch to a set. -/
  | switch (set : CodeSet)
  deriving DecidableEq, Repr

namespace Step

/-- The value of a step. -/
def value : Step → Nat
  | single _ value => value
  | pair _ _ value => value
  | function1 => 102
  | switch set => set.switchValue

/-- The characters that a step prints. -/
def text : Step → List Char
  | single character _ => [character]
  | pair tens ones _ => [tens, ones]
  | function1 | switch _ => []

/-- The set that is in force after a step. -/
def setAfter (set : CodeSet) : Step → CodeSet
  | switch target => target
  | single _ _ | pair _ _ _ | function1 => set

/-- The step for a character in the given set. -/
def ofCharacter? (set : CodeSet) (character : Char) : Option Step :=
  (set.value? character).map (.single character)

/-- The step for two digits. -/
def ofPair? (tens ones : Char) : Option Step :=
  match decimalDigit? tens, decimalDigit? ones with
  | some high, some low => some (.pair tens ones (10 * high + low))
  | _, _ => none

end Step

/-- The set to which the character behind a `>` switches. -/
def switch? : Char → Option CodeSet
  | '5' => some .c
  | '6' => some .b
  | '7' => some .a
  | _ => none

/-- The set with which the character behind an opening `>` begins. -/
def startSet? : Char → Option CodeSet
  | '9' => some .a
  | ':' => some .b
  | ';' => some .c
  | _ => none

/-- The step for data that stand for themselves, and the data behind it. -/
def plainStep (set : CodeSet) (character : Char) (rest : List Char) :
    Except Fault (Step × List Char) :=
  match set with
  | .c =>
    match rest with
    | [] => .error (.needsPair character)
    | ones :: rest =>
      match Step.ofPair? character ones with
      | some step => .ok (step, rest)
      | none => .error (.needsPair character)
  | set =>
    match Step.ofCharacter? set character with
    | some step => .ok (step, rest)
    | none => .error (.unencodable character)

/-- The step for the first data in normal mode, and the data behind it. -/
def normalStep (set : CodeSet) (character : Char) (rest : List Char) :
    Except Fault (Step × List Char) :=
  match character, rest with
  | '>', next :: behind =>
    match switch? next with
    | some target => .ok (.switch target, behind)
    | none =>
      if next = '8' then .ok (.function1, behind)
      else if next = '<' then
        match Step.ofCharacter? set '>' with
        | some step => .ok (step, behind)
        | none => .error .literalInPairs
      else plainStep set character rest
  | _, _ => plainStep set character rest

theorem plainStep_length_le {set : CodeSet} {character : Char} {rest behind : List Char}
    {step : Step} (taken : plainStep set character rest = .ok (step, behind)) :
    behind.length ≤ rest.length := by
  unfold plainStep at taken
  split at taken
  · split at taken
    · cases taken
    · split at taken <;> cases taken
      simp
  · split at taken <;> cases taken
    exact Nat.le_refl _

theorem normalStep_length_le {set : CodeSet} {character : Char} {rest behind : List Char}
    {step : Step} (taken : normalStep set character rest = .ok (step, behind)) :
    behind.length ≤ rest.length := by
  unfold normalStep at taken
  split at taken
  · split at taken
    · cases taken
      simp
    · split at taken
      · cases taken
        simp
      · split at taken
        · split at taken <;> cases taken
          simp
        · exact plainStep_length_le taken
  · exact plainStep_length_le taken

/-- The steps of data in normal mode, put behind those of `steps`. -/
def normalStepsFrom (steps : Array Step) (set : CodeSet) :
    List Char → Except Fault (Array Step)
  | [] => .ok steps
  | character :: rest =>
    match _taken : normalStep set character rest with
    | .ok (step, behind) => normalStepsFrom (steps.push step) (step.setAfter set) behind
    | .error fault => .error fault
termination_by data => data.length
decreasing_by
  have := normalStep_length_le _taken
  simp only [List.length_cons]
  omega

/-- The start set and the steps of data in normal mode: set B unless the data open otherwise. -/
def normalPlan (data : List Char) : Except Fault (CodeSet × List Step) :=
  let (set, rest) :=
    match data with
    | '>' :: next :: rest =>
      match startSet? next with
      | some set => (set, rest)
      | none => (.b, data)
    | _ => (.b, data)
  (normalStepsFrom #[] set rest).map fun steps => (set, steps.toList)

/-- The number of digits at the front of a text. -/
def digitRun (text : List Char) : Nat :=
  (text.takeWhile isDecimalDigit).length

/--
The steps for the first data in automatic mode, and the data behind them.  In set C pairs are
taken as long as two digits follow.  In a text set an even run of four digits or more leads to
set C; an odd one gives up its first digit before.
-/
def automaticSteps (set : CodeSet) (character : Char) (rest : List Char) :
    List Step × List Char :=
  let text (set : CodeSet) : List Step := (Step.ofCharacter? set character).toList
  let pair? : Option (Step × List Char) :=
    match rest with
    | [] => none
    | ones :: behind => (Step.ofPair? character ones).map fun step => (step, behind)
  match set, pair? with
  | .c, some (step, behind) => ([step], behind)
  | .c, none => (.switch (.ofText character) :: text (.ofText character), rest)
  | set, pair? =>
    let run := digitRun (character :: rest)
    match pair? with
    | some (step, behind) =>
      if 4 ≤ run ∧ run % 2 = 0 then ([.switch .c, step], behind) else (text set, rest)
    | none =>
      if (set.value? character).isSome then (text set, rest)
      else (.switch set.other :: text set.other, rest)

/-- The set that is in force after some steps. -/
def setAfter (set : CodeSet) (steps : List Step) : CodeSet :=
  steps.foldl Step.setAfter set

theorem automaticSteps_length_le (set : CodeSet) (character : Char) (rest : List Char) :
    (automaticSteps set character rest).2.length ≤ rest.length := by
  unfold automaticSteps
  cases rest with
  | nil => cases set <;> simp <;> split <;> simp
  | cons ones behind =>
    cases found : Step.ofPair? character ones with
    | none => cases set <;> simp [found] <;> split <;> simp
    | some step => cases set <;> simp [found] <;> split <;> simp

/-- The steps of data in automatic mode, put behind those of `steps`. -/
def automaticStepsFrom (steps : Array Step) (set : CodeSet) : List Char → Array Step
  | [] => steps
  | character :: rest =>
    automaticStepsFrom (steps ++ (automaticSteps set character rest).1)
      (setAfter set (automaticSteps set character rest).1)
      (automaticSteps set character rest).2
termination_by data => data.length
decreasing_by
  have := automaticSteps_length_le set character rest
  simp only [List.length_cons]
  omega

/--
The set in which automatic mode begins: C for four digits or more at the front, or if the data
are pairs of digits altogether.
-/
def automaticStart (data : List Char) : CodeSet :=
  let run := digitRun data
  if 4 ≤ run ∨ (run = data.length ∧ 2 ≤ run ∧ run % 2 = 0) then .c
  else
    match data with
    | [] => .b
    | character :: _ => .ofText character

/-- Whether a character has a value in set A or B. -/
def isAscii (character : Char) : Bool :=
  character.toNat < 128

/-- The start set and the steps of data in automatic mode. -/
def automaticPlan (data : List Char) : Except Fault (CodeSet × List Step) :=
  match data.find? (!isAscii ·) with
  | some character => .error (.unencodable character)
  | none =>
    let set := automaticStart data
    .ok (set, (automaticStepsFrom #[] set data).toList)

/--
The check value: each value is weighted with its position, the start value and the one behind it
with one, and the sum is taken modulo 103.
-/
def checkValue (values : List Nat) : Nat :=
  values.zipIdx.foldl (fun total entry => total + max entry.2 1 * entry.1) 0 % 103

/-- An encoded symbol. -/
structure Symbol where
  /-- The values from the start value to the check value. -/
  values : List Nat
  /-- The text that the symbol stands for. -/
  text : List Char
  deriving DecidableEq, Repr

/-- The symbol of a plan. -/
def Symbol.ofPlan (set : CodeSet) (steps : List Step) : Symbol :=
  let values := set.start :: steps.map Step.value
  ⟨values ++ [checkValue values], steps.flatMap Step.text⟩

/-- The symbol of data. -/
def encode (data : List Char) (mode : Code128Mode) : Except Fault Symbol :=
  let plan :=
    match mode with
    | .normal => normalPlan data
    | .automatic => automaticPlan data
  plan.map fun plan => Symbol.ofPlan plan.1 plan.2

/-- The widths of bars and spaces, in turns, that stand for each value; the last is the stop. -/
def patterns : Array (List Nat) :=
  #[[2, 1, 2, 2, 2, 2], [2, 2, 2, 1, 2, 2], [2, 2, 2, 2, 2, 1], [1, 2, 1, 2, 2, 3],
   [1, 2, 1, 3, 2, 2], [1, 3, 1, 2, 2, 2], [1, 2, 2, 2, 1, 3], [1, 2, 2, 3, 1, 2],
   [1, 3, 2, 2, 1, 2], [2, 2, 1, 2, 1, 3], [2, 2, 1, 3, 1, 2], [2, 3, 1, 2, 1, 2],
   [1, 1, 2, 2, 3, 2], [1, 2, 2, 1, 3, 2], [1, 2, 2, 2, 3, 1], [1, 1, 3, 2, 2, 2],
   [1, 2, 3, 1, 2, 2], [1, 2, 3, 2, 2, 1], [2, 2, 3, 2, 1, 1], [2, 2, 1, 1, 3, 2],
   [2, 2, 1, 2, 3, 1], [2, 1, 3, 2, 1, 2], [2, 2, 3, 1, 1, 2], [3, 1, 2, 1, 3, 1],
   [3, 1, 1, 2, 2, 2], [3, 2, 1, 1, 2, 2], [3, 2, 1, 2, 2, 1], [3, 1, 2, 2, 1, 2],
   [3, 2, 2, 1, 1, 2], [3, 2, 2, 2, 1, 1], [2, 1, 2, 1, 2, 3], [2, 1, 2, 3, 2, 1],
   [2, 3, 2, 1, 2, 1], [1, 1, 1, 3, 2, 3], [1, 3, 1, 1, 2, 3], [1, 3, 1, 3, 2, 1],
   [1, 1, 2, 3, 1, 3], [1, 3, 2, 1, 1, 3], [1, 3, 2, 3, 1, 1], [2, 1, 1, 3, 1, 3],
   [2, 3, 1, 1, 1, 3], [2, 3, 1, 3, 1, 1], [1, 1, 2, 1, 3, 3], [1, 1, 2, 3, 3, 1],
   [1, 3, 2, 1, 3, 1], [1, 1, 3, 1, 2, 3], [1, 1, 3, 3, 2, 1], [1, 3, 3, 1, 2, 1],
   [3, 1, 3, 1, 2, 1], [2, 1, 1, 3, 3, 1], [2, 3, 1, 1, 3, 1], [2, 1, 3, 1, 1, 3],
   [2, 1, 3, 3, 1, 1], [2, 1, 3, 1, 3, 1], [3, 1, 1, 1, 2, 3], [3, 1, 1, 3, 2, 1],
   [3, 3, 1, 1, 2, 1], [3, 1, 2, 1, 1, 3], [3, 1, 2, 3, 1, 1], [3, 3, 2, 1, 1, 1],
   [3, 1, 4, 1, 1, 1], [2, 2, 1, 4, 1, 1], [4, 3, 1, 1, 1, 1], [1, 1, 1, 2, 2, 4],
   [1, 1, 1, 4, 2, 2], [1, 2, 1, 1, 2, 4], [1, 2, 1, 4, 2, 1], [1, 4, 1, 1, 2, 2],
   [1, 4, 1, 2, 2, 1], [1, 1, 2, 2, 1, 4], [1, 1, 2, 4, 1, 2], [1, 2, 2, 1, 1, 4],
   [1, 2, 2, 4, 1, 1], [1, 4, 2, 1, 1, 2], [1, 4, 2, 2, 1, 1], [2, 4, 1, 2, 1, 1],
   [2, 2, 1, 1, 1, 4], [4, 1, 3, 1, 1, 1], [2, 4, 1, 1, 1, 2], [1, 3, 4, 1, 1, 1],
   [1, 1, 1, 2, 4, 2], [1, 2, 1, 1, 4, 2], [1, 2, 1, 2, 4, 1], [1, 1, 4, 2, 1, 2],
   [1, 2, 4, 1, 1, 2], [1, 2, 4, 2, 1, 1], [4, 1, 1, 2, 1, 2], [4, 2, 1, 1, 1, 2],
   [4, 2, 1, 2, 1, 1], [2, 1, 2, 1, 4, 1], [2, 1, 4, 1, 2, 1], [4, 1, 2, 1, 2, 1],
   [1, 1, 1, 1, 4, 3], [1, 1, 1, 3, 4, 1], [1, 3, 1, 1, 4, 1], [1, 1, 4, 1, 1, 3],
   [1, 1, 4, 3, 1, 1], [4, 1, 1, 1, 1, 3], [4, 1, 1, 3, 1, 1], [1, 1, 3, 1, 4, 1],
   [1, 1, 4, 1, 3, 1], [3, 1, 1, 1, 4, 1], [4, 1, 1, 1, 3, 1], [2, 1, 1, 4, 1, 2],
   [2, 1, 1, 2, 1, 4], [2, 1, 1, 2, 3, 2], [2, 3, 3, 1, 1, 1, 2]]

/-- The value of the stop pattern. -/
def stop : Nat := 106

/-- The modules of runs of the given widths, the first one a bar if `bar` is true. -/
def modulesOfWidths (bar : Bool) : List Nat → List Bool
  | [] => []
  | width :: widths => List.replicate width bar ++ modulesOfWidths (!bar) widths

/-- The modules of a value: 11 of them, or 13 for the stop. -/
def modulesOfValue (value : Nat) : List Bool :=
  modulesOfWidths true (patterns.getD value [])

/-- The modules of a symbol, stop included; a bar is true. -/
def Symbol.modules (symbol : Symbol) : List Bool :=
  (symbol.values ++ [stop]).flatMap modulesOfValue

end LabelPress.Code128
