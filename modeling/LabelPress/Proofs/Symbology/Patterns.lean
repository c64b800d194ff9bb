import LabelPress.Symbology.Code128
import Mathlib.Algebra.Ring.Nat

/-!
# Patterns of bars

A reader of bars looks a pattern up in a table.  It finds an entry exactly by its own pattern if
no two entries look alike (`Bars.find?_eq_some_iff_of_injective`).  If all patterns have the same
length, it may cut modules into groups of that length and look up one group after another
(`Bars.entries?_eq_some_iff`).

Patterns that are given by widths look alike only if the widths are the same
(`Code128.modulesOfWidths_injective`): a bar and the space behind it are told apart by their colour,
so that every width is the length of a run of modules.
-/

namespace LabelPress

namespace Bars

/-- An entry is found by its key in a table in which no two keys are the same. -/
theorem find?_eq_some_iff_of_injective
    {Entry Key : Type}
    [DecidableEq Key]
    {table : List Entry}
    {key : Entry → Key}
    (apart : ∀ first ∈ table, ∀ second ∈ table, key first = key second → first = second)
    {wanted : Key}
    {entry : Entry} :
    table.find? (fun entry => key entry = wanted) = some entry ↔
      entry ∈ table ∧ key entry = wanted := by
  constructor
  · intro found
    have matched := List.find?_some found
    exact ⟨List.mem_of_find?_eq_some found, of_decide_eq_true matched⟩
  · rintro ⟨member, rfl⟩
    cases found : table.find? (fun other => key other = key entry) with
    | none =>
        have absent := List.find?_eq_none.mp found entry member
        exact absurd (decide_eq_true rfl) absent
    | some other =>
        have matched := List.find?_some found
        rw [apart other (List.mem_of_find?_eq_some found) entry member (of_decide_eq_true matched)]

/-- Looks up groups of modules of the same length, one after another, and gives what is behind. -/
def entries? {Entry : Type} (look : List Bool → Option Entry) (length : Nat) :
    (count : Nat) → List Bool → Option (List Entry × List Bool)
  | 0, modules => some ([], modules)
  | count + 1, modules => do
    let entry ← look (modules.take length)
    let (entries, behind) ← entries? look length count (modules.drop length)
    return (entry :: entries, behind)

/-- Entries are read exactly where their patterns stand one after another. -/
theorem entries?_eq_some_iff
    {Entry : Type}
    {look : List Bool → Option Entry}
    {length : Nat}
    {known : Entry → Prop}
    {pattern : Entry → List Bool}
    (look_eq_some_iff : ∀ {modules entry},
      look modules = some entry ↔ known entry ∧ pattern entry = modules)
    (length_pattern : ∀ {entry}, known entry → (pattern entry).length = length)
    {count : Nat}
    {modules rest : List Bool}
    {entries : List Entry} :
    entries? look length count modules = some (entries, rest) ↔
      entries.length = count ∧ (∀ entry ∈ entries, known entry) ∧
        modules = entries.flatMap pattern ++ rest := by
  induction count generalizing modules entries with
  | zero =>
      constructor
      · intro read
        cases read
        exact ⟨rfl, fun entry member => absurd member List.not_mem_nil, rfl⟩
      · rintro ⟨empty, -, rfl⟩
        rw [List.eq_nil_of_length_eq_zero empty]
        rfl
  | succ count ih =>
      constructor
      · intro read
        simp only [entries?, Option.bind_eq_bind, Option.bind_eq_some_iff] at read
        obtain ⟨entry, found, ⟨later, behind⟩, laterFound, read⟩ := read
        cases read
        obtain ⟨entryKnown, front⟩ := look_eq_some_iff.mp found
        obtain ⟨laterLength, laterKnown, laterFront⟩ := ih.mp laterFound
        refine ⟨congrArg (· + 1) laterLength, List.forall_mem_cons.mpr ⟨entryKnown, laterKnown⟩, ?_⟩
        rw [List.flatMap_cons, List.append_assoc, ← laterFront, front, List.take_append_drop]
      · rintro ⟨allLength, allKnown, rfl⟩
        cases entries with
        | nil =>
            cases allLength
        | cons entry later =>
            obtain ⟨entryKnown, laterKnown⟩ := List.forall_mem_cons.mp allKnown
            have entryLength := length_pattern entryKnown
            have found : look (pattern entry) = some entry := look_eq_some_iff.mpr ⟨entryKnown, rfl⟩
            have laterFound :
                entries? look length count (later.flatMap pattern ++ rest) = some (later, rest) :=
              ih.mpr ⟨Nat.succ.inj allLength, laterKnown, rfl⟩
            rw [List.flatMap_cons, List.append_assoc, entries?, List.take_left' entryLength,
              List.drop_left' entryLength, found]
            change (entries? look length count _ >>= _) = _
            rw [laterFound]
            rfl

end Bars

namespace Code128

theorem length_modulesOfWidths (bar : Bool) (widths : List Nat) :
    (modulesOfWidths bar widths).length = widths.sum := by
  induction widths generalizing bar with
  | nil =>
      rfl
  | cons width widths ih =>
      rw [modulesOfWidths, List.length_append, List.length_replicate, ih, List.sum_cons]

/-- The first run of modules is as long as the first width says. -/
theorem takeWhile_modulesOfWidths
    (bar : Bool)
    (width : Nat)
    {widths : List Nat}
    (positive : ∀ width ∈ widths, 0 < width) :
    (modulesOfWidths bar (width :: widths)).takeWhile (· = bar) = List.replicate width bar := by
  have run : ∀ module ∈ List.replicate width bar, decide (module = bar) = true := by
    intro module member
    exact decide_eq_true (List.eq_of_mem_replicate member)
  rw [modulesOfWidths, List.takeWhile_append_of_pos run]
  cases widths with
  | nil =>
      rw [modulesOfWidths, List.takeWhile_nil, List.append_nil]
  | cons next widths =>
      -- The next run begins with a module of the other colour.
      obtain ⟨more, rfl⟩ := Nat.exists_eq_add_one.mpr (positive next List.mem_cons_self)
      simp [modulesOfWidths, List.replicate_succ]

theorem modulesOfWidths_injective
    {bar : Bool}
    {first second : List Nat}
    (firstPositive : ∀ width ∈ first, 0 < width)
    (secondPositive : ∀ width ∈ second, 0 < width)
    (same : modulesOfWidths bar first = modulesOfWidths bar second) :
    first = second := by
  induction first generalizing bar second with
  | nil =>
      cases second with
      | nil =>
          rfl
      | cons width widths =>
          have lengths := congrArg List.length same
          rw [length_modulesOfWidths, length_modulesOfWidths, List.sum_nil, List.sum_cons] at lengths
          have positive := secondPositive width List.mem_cons_self
          omega
  | cons width widths ih =>
      cases second with
      | nil =>
          have lengths := congrArg List.length same
          rw [length_modulesOfWidths, length_modulesOfWidths, List.sum_nil, List.sum_cons] at lengths
          have positive := firstPositive width List.mem_cons_self
          omega
      | cons otherWidth others =>
          obtain ⟨-, widthsPositive⟩ := List.forall_mem_cons.mp firstPositive
          obtain ⟨-, othersPositive⟩ := List.forall_mem_cons.mp secondPositive
          have runs : List.replicate width bar = List.replicate otherWidth bar := by
            rw [← takeWhile_modulesOfWidths bar width widthsPositive, same,
              takeWhile_modulesOfWidths bar otherWidth othersPositive]
          rw [modulesOfWidths, modulesOfWidths, runs] at same
          have later := ih widthsPositive othersPositive (List.append_cancel_left same)
          have lengths := congrArg List.length runs
          rw [List.length_replicate, List.length_replicate] at lengths
          rw [lengths, later]

end Code128

end LabelPress
