import LabelPress.Text.Integer

/-!
# Decimal digits as characters

A character has a digit's value exactly if it is one of the ten digits, and it is then the character
of that value.  So a text of digits is known by its values (`map_digitChar_filterMap`).
-/

namespace LabelPress.Text

theorem eq_ofNat_of_decimalDigit? {character : Char} {digit : Nat}
    (found : decimalDigit? character = some digit) :
    digit < 10 ∧ Char.ofNat ('0'.toNat + digit) = character := by
  unfold decimalDigit? at found
  split at found
  · rename_i range
    cases found
    have lower : '0'.toNat ≤ character.toNat := range.1
    have upper : character.toNat ≤ '9'.toNat := range.2
    constructor
    · have nine : '9'.toNat = '0'.toNat + 9 := rfl
      omega
    · rw [Nat.add_sub_cancel' lower, Char.ofNat_toNat]
  · cases found

theorem isDecimalDigit_of_decimalDigit? {character : Char} {digit : Nat}
    (found : decimalDigit? character = some digit) :
    isDecimalDigit character = true := by
  unfold decimalDigit? at found
  split at found
  · rename_i range
    simpa [isDecimalDigit] using range
  · cases found

theorem exists_decimalDigit?
    {character : Char}
    (isDigit : isDecimalDigit character = true) :
    ∃ digit, decimalDigit? character = some digit := by
  have range : '0' ≤ character ∧ character ≤ '9' := by
    simpa [isDecimalDigit] using isDigit
  exact ⟨_, if_pos range⟩

theorem digitChar_of_decimalDigit?
    {character : Char}
    {digit : Nat}
    (found : decimalDigit? character = some digit) :
    Nat.digitChar digit = character := by
  obtain ⟨small, rfl⟩ := eq_ofNat_of_decimalDigit? found
  have all : ∀ digit < 10, Nat.digitChar digit = Char.ofNat ('0'.toNat + digit) := by decide
  exact all digit small

/-- The values of characters are digits. -/
theorem lt_of_mem_filterMap
    {data : List Char} :
    ∀ digit ∈ data.filterMap decimalDigit?, digit < 10 := by
  intro digit member
  rcases List.mem_filterMap.mp member with ⟨character, -, found⟩
  exact (eq_ofNat_of_decimalDigit? found).1

/-- A text of digits is written again from their values. -/
theorem map_digitChar_filterMap
    {data : List Char}
    (digits : ∀ character ∈ data, isDecimalDigit character = true) :
    (data.filterMap decimalDigit?).map Nat.digitChar = data := by
  induction data with
  | nil =>
      rfl
  | cons character data ih =>
      obtain ⟨digit, found⟩ := exists_decimalDigit? (digits character List.mem_cons_self)
      have later := ih fun other member => digits other (List.mem_cons_of_mem character member)
      rw [List.filterMap_cons_some found, List.map_cons, later, digitChar_of_decimalDigit? found]

end LabelPress.Text
