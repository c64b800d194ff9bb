import LabelPress.Proofs.Code128.AutomaticMode
import LabelPress.Proofs.Code128.NormalMode
import LabelPress.Proofs.Drawing.Checked
import LabelPress.Proofs.Symbology.Patterns

/-!
# Code 128 symbols are well formed and can be read

Every value of a symbol has a pattern of eleven modules, and all these patterns are different
(`modulesOfValue_injective`).  So a reader who cuts the modules of a symbol into groups of eleven
and looks each of them up (`read?`) finds the values again.  Behind the last group stands the stop
pattern.

The last value is a check value: the sum of the values, each multiplied with its position, modulo
103.  It may be found in words of fixed size, whatever the number of values is, if weights and sums
are reduced modulo 103 on the way (`reducedCheckValue_eq_some`).

The main statement (`encode_well_formed`) collects what holds for the symbols of all data in both
modes.
-/

namespace LabelPress.Code128

/-! ## Values -/

theorem value_le_of_encodedIn {set : CodeSet} {step : Step} (encoded : step.EncodedIn set) :
    step.value ≤ 102 := by
  cases step with
  | single character value =>
      have found : set.value? character = some value := encoded
      unfold CodeSet.value? at found
      show value ≤ 102
      cases set with
      | a =>
          dsimp only at found
          split at found
          · cases found
            omega
          · split at found
            · cases found
              omega
            · cases found
      | b =>
          dsimp only at found
          split at found
          · cases found
            omega
          · cases found
      | c =>
          cases found
  | pair tens ones value =>
      rcases encoded with ⟨-, high, low, tensDigit, onesDigit, rfl⟩
      have tensLt := (Text.eq_ofNat_of_decimalDigit? tensDigit).1
      have onesLt := (Text.eq_ofNat_of_decimalDigit? onesDigit).1
      show 10 * high + low ≤ 102
      omega
  | function1 =>
      exact Nat.le_refl _
  | switch target =>
      cases target <;> decide

theorem value_le_of_encodedFrom {set : CodeSet} {steps : List Step}
    (encoded : EncodedFrom set steps) : ∀ step ∈ steps, step.value ≤ 102 := by
  induction steps generalizing set with
  | nil =>
      simp
  | cons first steps ih =>
      intro step member
      rcases List.mem_cons.mp member with rfl | member
      · exact value_le_of_encodedIn encoded.1
      · exact ih encoded.2 step member

theorem encodedFrom_of_plan {data : List Char} {mode : Code128Mode} {set : CodeSet}
    {steps : List Step} (planned : plan data mode = .ok (set, steps)) :
    EncodedFrom set steps := by
  cases mode with
  | normal =>
      exact (normalRun_of_normalPlan planned).2.encodedFrom
  | automatic =>
      exact (automaticPlan_run planned).1

/-- A symbol has a start value, values that start nothing, and their check value. -/
theorem exists_values_of_encode
    {data : List Char}
    {mode : Code128Mode}
    {symbol : Symbol}
    (encoded : encode data mode = .ok symbol) :
    ∃ (set : CodeSet) (values : List Nat),
      (∀ value ∈ values, value ≤ 102) ∧
        symbol.values = set.start :: values ++ [checkValue (set.start :: values)] := by
  rcases encode_eq_ok_iff.mp encoded with ⟨set, steps, planned, rfl⟩
  have small := value_le_of_encodedFrom (encodedFrom_of_plan planned)
  refine ⟨set, steps.map Step.value, ?_, rfl⟩
  intro value member
  obtain ⟨step, stepMember, rfl⟩ := List.mem_map.mp member
  exact small step stepMember

theorem start_bounds (set : CodeSet) : 103 ≤ set.start ∧ set.start ≤ 105 := by
  cases set <;> decide

/-- The values of a symbol are below the one of the stop pattern. -/
theorem value_lt_of_encode {data : List Char} {mode : Code128Mode} {symbol : Symbol}
    (encoded : encode data mode = .ok symbol) :
    ∀ value ∈ symbol.values, value < stop := by
  obtain ⟨set, values, small, found⟩ := exists_values_of_encode encoded
  rw [found]
  intro value member
  rcases List.mem_append.mp member with member | member
  · rcases List.mem_cons.mp member with rfl | member
    · exact Nat.lt_succ_of_le (start_bounds set).2
    · exact Nat.lt_of_le_of_lt (small value member) (by decide)
  · rw [List.mem_singleton.mp member]
    exact Nat.lt_trans (Nat.mod_lt _ (by decide)) (by decide)

/-- Only the first value of a symbol is a start value. -/
theorem start_iff_first_of_encode
    {data : List Char}
    {mode : Code128Mode}
    {symbol : Symbol}
    (encoded : encode data mode = .ok symbol)
    {place value : Nat}
    (found : symbol.values[place]? = some value) :
    (∃ set : CodeSet, value = set.start) ↔ place = 0 := by
  obtain ⟨set, values, small, all⟩ := exists_values_of_encode encoded
  rw [all, List.cons_append] at found
  cases place with
  | zero =>
      exact ⟨fun _ => rfl, fun _ => ⟨set, (Option.some.inj found).symm⟩⟩
  | succ place =>
      refine ⟨?_, fun impossible => absurd impossible (Nat.succ_ne_zero place)⟩
      rintro ⟨other, rfl⟩
      have startLe := (start_bounds other).1
      rcases List.mem_append.mp (List.mem_of_getElem? found) with member | member
      · have small := small _ member
        omega
      · have small : checkValue (set.start :: values) < 103 := Nat.mod_lt _ (by decide)
        rw [← List.mem_singleton.mp member] at small
        omega

/-! ## The check value -/

/-- The sum of values: the first one counts once, every other one as often as its position says. -/
def weightedSum : List Nat → Nat
  | [] => 0
  | first :: values => first + ((values.zipIdx 1).map fun entry => entry.2 * entry.1).sum

theorem foldl_weighted (entries : List (Nat × Nat)) (total : Nat) :
    entries.foldl (fun total entry => total + max entry.2 1 * entry.1) total =
      total + (entries.map fun entry => max entry.2 1 * entry.1).sum := by
  induction entries generalizing total with
  | nil =>
      rfl
  | cons entry entries ih =>
      rw [List.foldl_cons, ih, List.map_cons, List.sum_cons, Nat.add_assoc]

theorem sum_weighted (values : List Nat) :
    (values.zipIdx.map fun entry => max entry.2 1 * entry.1).sum = weightedSum values := by
  cases values with
  | nil =>
      rfl
  | cons first values =>
      have weights : (values.zipIdx 1).map (fun entry => max entry.2 1 * entry.1) =
          (values.zipIdx 1).map fun entry => entry.2 * entry.1 := by
        apply List.map_congr_left
        intro entry member
        rw [Nat.max_eq_left (List.le_snd_of_mem_zipIdx member)]
      rw [List.zipIdx_cons, List.map_cons, List.sum_cons, Nat.zero_add, weights, weightedSum,
        Nat.zero_max, Nat.one_mul]

theorem checkValue_eq (values : List Nat) : checkValue values = weightedSum values % 103 := by
  rw [checkValue, foldl_weighted, sum_weighted, Nat.zero_add]

/-- Adds a value with its weight, both reduced modulo 103; no step leaves a word. -/
def addReduced (total : Nat) (entry : Nat × Nat) : Option Nat := do
  let product ← Checked.unsigned 64 (max entry.2 1 % 103 * entry.1)
  let sum ← Checked.unsigned 64 (total + product)
  return sum % 103

/-- The check value in reduced steps; it has to fit a byte. -/
def reducedCheckValue (values : List Nat) : Option Nat := do
  let sum ← values.zipIdx.foldlM addReduced 0
  Checked.unsigned 8 sum

theorem addReduced_eq_some
    {total : Nat}
    {entry : Nat × Nat}
    (reduced : total < 103)
    (byte : entry.1 < 2 ^ 8) :
    addReduced total entry = some ((total + max entry.2 1 * entry.1) % 103) := by
  have weight : max entry.2 1 % 103 < 103 := Nat.mod_lt _ (by decide)
  have product : max entry.2 1 % 103 * entry.1 ≤ 103 * 2 ^ 8 :=
    Nat.mul_le_mul (Nat.le_of_lt weight) (Nat.le_of_lt byte)
  rw [addReduced, Checked.bind_of_eq_some (Checked.unsigned_of_lt (by omega)),
    Checked.bind_of_eq_some (Checked.unsigned_of_lt (by omega))]
  apply congrArg some
  rw [Nat.add_mod, Nat.mod_mul_mod, ← Nat.add_mod]

theorem foldlM_addReduced_eq_some
    {entries : List (Nat × Nat)}
    {total : Nat}
    (reduced : total < 103)
    (bytes : ∀ entry ∈ entries, entry.1 < 2 ^ 8) :
    entries.foldlM addReduced total =
      some ((total + (entries.map fun entry => max entry.2 1 * entry.1).sum) % 103) := by
  induction entries generalizing total with
  | nil =>
      exact congrArg some (Nat.mod_eq_of_lt reduced).symm
  | cons entry entries ih =>
      obtain ⟨byte, others⟩ := List.forall_mem_cons.mp bytes
      rw [List.foldlM_cons, Checked.bind_of_eq_some (addReduced_eq_some reduced byte),
        ih (Nat.mod_lt _ (by decide)) others, Nat.mod_add_mod, List.map_cons, List.sum_cons,
        Nat.add_assoc]

/-- In reduced steps the check value of bytes is found without leaving a word. -/
theorem reducedCheckValue_eq_some
    {values : List Nat}
    (bytes : ∀ value ∈ values, value < 2 ^ 8) :
    reducedCheckValue values = some (weightedSum values % 103) := by
  have entries : ∀ entry ∈ values.zipIdx, entry.1 < 2 ^ 8 :=
    fun entry member => bytes entry.1 (List.fst_mem_of_mem_zipIdx member)
  have small : weightedSum values % 103 < 103 := Nat.mod_lt _ (by decide)
  rw [reducedCheckValue,
    Checked.bind_of_eq_some (foldlM_addReduced_eq_some (by decide) entries), sum_weighted,
    Nat.zero_add]
  exact Checked.unsigned_of_lt (by omega)

/-! ## Patterns of values -/

theorem nodup_patterns : patterns.toList.Nodup := by
  decide +kernel

theorem exists_widths {value : Nat} (known : value < stop) :
    ∃ inside : value < patterns.toList.length,
      patterns.getD value [] = patterns.toList[value] := by
  have inside : value < patterns.toList.length := Nat.lt_trans known (by decide)
  refine ⟨inside, ?_⟩
  rw [Array.getD_eq_getD_getElem?, Array.getElem?_eq_getElem inside, Option.getD_some,
    Array.getElem_toList]

/-- The widths of a value other than the stop are at least one module, and eleven altogether. -/
theorem widths_of_value {value : Nat} (known : value < stop) :
    (∀ width ∈ patterns.getD value [], 0 < width) ∧ (patterns.getD value []).sum = 11 := by
  have all : ∀ widths ∈ patterns.toList.take stop,
      (∀ width ∈ widths, 0 < width) ∧ widths.sum = 11 := by
    decide +kernel
  obtain ⟨inside, found⟩ := exists_widths known
  rw [found]
  exact all _ (List.mem_take_iff_getElem.mpr ⟨value, lt_min known inside, rfl⟩)

theorem length_modulesOfValue {value : Nat} (known : value < stop) :
    (modulesOfValue value).length = 11 := by
  rw [modulesOfValue, length_modulesOfWidths, (widths_of_value known).2]

/-- No two values look alike. -/
theorem modulesOfValue_injective
    {first second : Nat}
    (firstKnown : first < stop)
    (secondKnown : second < stop)
    (same : modulesOfValue first = modulesOfValue second) :
    first = second := by
  have widths := modulesOfWidths_injective (widths_of_value firstKnown).1
    (widths_of_value secondKnown).1 same
  obtain ⟨firstInside, firstFound⟩ := exists_widths firstKnown
  obtain ⟨secondInside, secondFound⟩ := exists_widths secondKnown
  rw [firstFound, secondFound] at widths
  exact nodup_patterns.getElem_inj_iff.mp widths

/-! ## Reading -/

/-- The bars that end a symbol. -/
def stopPattern : List Bool :=
  [true, true, false, false, false, true, true, true, false, true, false, true, true]

/-- Modules that show values: the pattern of one after another, with the stop pattern behind. -/
def Shows (modules : List Bool) (values : List Nat) : Prop :=
  (∀ value ∈ values, value < stop) ∧ modules = values.flatMap modulesOfValue ++ stopPattern

/-- The value with a pattern. -/
def value? (group : List Bool) : Option Nat :=
  (List.range stop).find? fun value => modulesOfValue value = group

/-- Reads modules in groups of eleven; the stop pattern has to be behind them. -/
def read? (modules : List Bool) : Option (List Nat) := do
  let (values, behind) ←
    Bars.entries? value? 11 ((modules.length - stopPattern.length) / 11) modules
  if behind = stopPattern then return values else none

theorem value?_eq_some_iff {group : List Bool} {value : Nat} :
    value? group = some value ↔ value < stop ∧ modulesOfValue value = group := by
  rw [← List.mem_range]
  apply Bars.find?_eq_some_iff_of_injective
  intro first firstMember second secondMember
  exact modulesOfValue_injective (List.mem_range.mp firstMember) (List.mem_range.mp secondMember)

theorem modulesOfValue_stop : modulesOfValue stop = stopPattern := by
  decide +kernel

theorem shows_modules
    {symbol : Symbol}
    (known : ∀ value ∈ symbol.values, value < stop) :
    Shows symbol.modules symbol.values := by
  refine ⟨known, ?_⟩
  rw [Symbol.modules, List.flatMap_append, List.flatMap_singleton, modulesOfValue_stop]

theorem length_of_shows {modules : List Bool} {values : List Nat} (shown : Shows modules values) :
    modules.length = 11 * values.length + stopPattern.length := by
  obtain ⟨known, rfl⟩ := shown
  have lengths : values.map (fun value => (modulesOfValue value).length) =
      values.map fun _ => 11 :=
    List.map_congr_left fun value member => length_modulesOfValue (known value member)
  rw [List.length_append, List.length_flatMap, lengths, List.map_const', List.sum_replicate_nat,
    Nat.mul_comm]

/-- Values are read exactly where modules show them. -/
theorem read?_eq_some_iff {modules : List Bool} {values : List Nat} :
    read? modules = some values ↔ Shows modules values := by
  have found : ∀ {count : Nat} {behind : List Bool},
      Bars.entries? value? 11 count modules = some (values, behind) ↔
        values.length = count ∧ (∀ value ∈ values, value < stop) ∧
          modules = values.flatMap modulesOfValue ++ behind :=
    Bars.entries?_eq_some_iff value?_eq_some_iff length_modulesOfValue
  constructor
  · intro read
    simp only [read?, Option.bind_eq_bind, Option.bind_eq_some_iff] at read
    obtain ⟨⟨_, behind⟩, entries, read⟩ := read
    split at read
    · rename_i atStop
      cases read
      obtain rfl : behind = stopPattern := atStop
      exact (found.mp entries).2
    · cases read
  · intro shown
    have count : values.length = (modules.length - stopPattern.length) / 11 := by
      rw [length_of_shows shown, Nat.add_sub_cancel, Nat.mul_div_cancel_left _ (by decide)]
    rw [read?, found.mpr ⟨count, shown⟩]
    change (if stopPattern = stopPattern then some values else none) = some values
    rw [if_pos rfl]

/--
Symbols are well formed.  All values have patterns of eleven modules; the first one is a start value
and no other is.  The last one is the sum of those before it, each multiplied with its position,
modulo 103; reduced weights and sums, in words of 64 bits, lead to the same value.  The modules are
eleven for every value and thirteen for the stop.  Cut into groups of eleven they are read as the
values of the symbol, and show no others.
-/
theorem encode_well_formed
    {data : List Char}
    {mode : Code128Mode}
    {symbol : Symbol}
    (encoded : encode data mode = .ok symbol) :
    (∀ value ∈ symbol.values, value ≤ 105) ∧
      (∀ place value, symbol.values[place]? = some value →
        ((∃ set : CodeSet, value = set.start) ↔ place = 0)) ∧
      (∃ preceding, preceding ≠ [] ∧
        symbol.values = preceding ++ [weightedSum preceding % 103] ∧
          reducedCheckValue preceding = some (weightedSum preceding % 103)) ∧
      symbol.modules.length = 11 * symbol.values.length + 13 ∧
      read? symbol.modules = some symbol.values ∧
      ∀ values, Shows symbol.modules values ↔ values = symbol.values := by
  have known := value_lt_of_encode encoded
  have shown := shows_modules known
  refine ⟨fun value member => Nat.le_of_lt_succ (known value member),
    fun place value => start_iff_first_of_encode encoded, ?_, length_of_shows shown,
    read?_eq_some_iff.mpr shown, ?_⟩
  · obtain ⟨set, values, small, all⟩ := exists_values_of_encode encoded
    have bytes : ∀ value ∈ set.start :: values, value < 2 ^ 8 := by
      intro value member
      have inSymbol : value ∈ symbol.values := all ▸ List.mem_append_left _ member
      exact Nat.lt_trans (known value inSymbol) (by decide)
    refine ⟨set.start :: values, List.cons_ne_nil _ _, ?_, reducedCheckValue_eq_some bytes⟩
    rw [all, checkValue_eq]
  · intro values
    constructor
    · intro other
      have read := (read?_eq_some_iff.mpr other).symm.trans (read?_eq_some_iff.mpr shown)
      exact Option.some.inj read
    · rintro rfl
      exact shown

/-- A symbol that goes from set B to C: its check value is 784 modulo 103. -/
theorem encode_well_formed_of_letters_and_pairs :
    let symbol : Symbol := ⟨[104, 33, 66, 99, 12, 34, 63], "Ab1234".toList⟩
    encode "Ab1234".toList .automatic = .ok symbol ∧
      (∃ preceding, symbol.values = preceding ++ [weightedSum preceding % 103] ∧
        reducedCheckValue preceding = some (weightedSum preceding % 103)) ∧
      symbol.modules.length = 90 ∧ read? symbol.modules = some symbol.values := by
  intro symbol
  have encoded : encode "Ab1234".toList .automatic = .ok symbol := by
    with_unfolding_all rfl
  obtain ⟨-, -, ⟨preceding, -, checked, reduced⟩, length, read, -⟩ := encode_well_formed encoded
  exact ⟨encoded, ⟨preceding, checked, reduced⟩, length, read⟩

end LabelPress.Code128
