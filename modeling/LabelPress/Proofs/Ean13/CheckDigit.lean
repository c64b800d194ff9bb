import LabelPress.Proofs.Ean13.Codes

/-!
# What the check digit is good for

Data have a normal form exactly if they hold nothing but digits (`exists_fault_iff`).  The text of a
normal form is digits again, and its own normal form (`normalize_text`): the check digit is computed
anew from the same twelve digits.

Neither weight has a divisor in common with ten.  So another digit in a single place moves the
weighted sum by an amount that is no multiple of ten (`not_dvd_sum_set`), and a code that was read
with one wrong digit is never taken for a valid one.  The main statement (`normalize_checks`) joins
the two.
-/

namespace LabelPress.Ean13

open LabelPress.Text

/-! ## Data that have a normal form -/

theorem exists_fault_iff (data : List Char) :
    (∃ fault, normalize data = .error fault) ↔
      ∃ character ∈ data, isDecimalDigit character = false := by
  rw [normalize]
  cases found : data.find? (!isDecimalDigit ·) with
  | none =>
      refine iff_of_false ?_ ?_
      · rintro ⟨fault, failed⟩
        cases failed
      · rintro ⟨character, member, other⟩
        have digit := List.find?_eq_none.mp found character member
        rw [other] at digit
        exact digit rfl
  | some character =>
      have other : isDecimalDigit character = false := by
        simpa using List.find?_some found
      exact iff_of_true ⟨_, rfl⟩ ⟨character, List.mem_of_find?_eq_some found, other⟩

/-- A normal form is twelve digits and their check digit. -/
theorem exists_payload_of_normalize {data : List Char} {code : List Nat}
    (normal : normalize data = .ok code) :
    ∃ digits, digits.length = 12 ∧ (∀ digit ∈ digits, digit < 10) ∧
      code = digits ++ [checkDigit digits] := by
  unfold normalize at normal
  split at normal
  · cases normal
  · cases normal
    exact ⟨_, length_payload _, digit_lt_of_data data, rfl⟩

/-! ## Normal forms of normal forms -/

theorem decimalDigit?_digitChar : ∀ digit < 10,
    isDecimalDigit digit.digitChar = true ∧ decimalDigit? digit.digitChar = some digit := by
  decide

theorem filterMap_text {digits : List Nat} (small : ∀ digit ∈ digits, digit < 10) :
    (text digits).filterMap decimalDigit? = digits := by
  induction digits with
  | nil =>
      rfl
  | cons digit digits ih =>
      obtain ⟨digitLt, laterLt⟩ := List.forall_mem_cons.mp small
      rw [text, List.map_cons,
        List.filterMap_cons_some (decimalDigit?_digitChar digit digitLt).2]
      exact congrArg (digit :: ·) (ih laterLt)

theorem isDecimalDigit_of_mem_text {digits : List Nat} (small : ∀ digit ∈ digits, digit < 10) :
    ∀ character ∈ text digits, isDecimalDigit character = true := by
  intro character member
  rcases List.mem_map.mp member with ⟨digit, digitMember, rfl⟩
  exact (decimalDigit?_digitChar digit (small digit digitMember)).1

/-- Of twelve digits with anything behind them the twelve are taken. -/
theorem payload_append {digits : List Nat} (length : digits.length = 12) (behind : List Nat) :
    payload (digits ++ behind) = digits := by
  have full : 12 - (digits ++ behind).length = 0 := by
    rw [List.length_append]
    omega
  rw [payload, full, ← length, List.take_left]
  rfl

/-- The text of a normal form stands for the same code. -/
theorem normalize_text {data : List Char} {code : List Nat} (normal : normalize data = .ok code) :
    normalize (text code) = .ok code := by
  obtain ⟨digits, length, small, rfl⟩ := exists_payload_of_normalize normal
  have codeSmall := (valid_append_checkDigit length small).digits
  have none : (text (digits ++ [checkDigit digits])).find? (!isDecimalDigit ·) = none := by
    apply List.find?_eq_none.mpr
    intro character member
    rw [isDecimalDigit_of_mem_text codeSmall character member]
    decide
  rw [normalize, none]
  dsimp only
  rw [filterMap_text codeSmall, payload_append length]

/-! ## A wrong digit -/

/-- Another digit in one place changes the weighted sum by its weight times the difference. -/
theorem weightedSum_set (digits : List Nat) (first : Nat) {place : Nat}
    (inside : place < digits.length) (digit : Nat) :
    weightedSum (weight first) (digits.set place digit) + weight (first + place) * digits[place] =
      weightedSum (weight first) digits + weight (first + place) * digit := by
  induction digits generalizing first place with
  | nil =>
      cases inside
  | cons head digits ih =>
      cases place with
      | zero =>
          show weight first * digit + _ + weight first * head =
            weight first * head + _ + weight first * digit
          omega
      | succ place =>
          have later := ih (first + 1) (Nat.lt_of_succ_lt_succ inside)
          rw [weight_succ, Nat.add_assoc first 1 place, Nat.add_comm 1 place] at later
          rw [List.set_cons_succ, List.getElem_cons_succ, weightedSum, weightedSum]
          omega

/-- A single wrong digit is found, wherever it stands. -/
theorem not_dvd_sum_set {code : List Nat} (valid : Valid code) {place digit : Nat}
    (inside : place < 13) (digitLt : digit < 10) (wrong : code[place]? ≠ some digit) :
    ¬ 10 ∣ ((code.set place digit).zipIdx.map fun entry => weight entry.2 * entry.1).sum := by
  have within : place < code.length := valid.length.symm ▸ inside
  have rightLt := valid.digits code[place] (List.getElem_mem within)
  have different : code[place] ≠ digit := by
    intro same
    apply wrong
    rw [List.getElem?_eq_getElem within, same]
  have sum := valid.sum
  have changed := weightedSum_set code 0 within digit
  rw [← sum_zipIdx_eq_weightedSum, ← sum_zipIdx_eq_weightedSum] at changed
  -- Modulo ten the sum has moved by the weight times a difference between minus nine and nine.
  rcases (show weight (0 + place) = 1 ∨ weight (0 + place) = 3 by
    unfold weight; split <;> simp) with once | thrice
  · rw [once] at changed
    omega
  · rw [thrice] at changed
    omega

/-! ## Normal forms -/

/--
Data have no normal form exactly if some character is no digit.  All other data have one, of
thirteen digits: the first twelve of the data, behind zeros if there are fewer, and a check digit
that makes the weighted sum a multiple of ten.  The text of the normal form is its own normal form,
and with another digit in any one place the weighted sum is no multiple of ten.
-/
theorem normalize_checks (data : List Char) :
    ((∃ fault, normalize data = .error fault) ↔
        ∃ character ∈ data, isDecimalDigit character = false) ∧
      ((∀ character ∈ data, isDecimalDigit character = true) →
        ∃ code, normalize data = .ok code ∧ Valid code ∧
          (text code).take 12 = List.replicate (12 - data.length) '0' ++ data.take 12 ∧
          normalize (text code) = .ok code ∧
          ∀ place digit, place < 13 → digit < 10 → code[place]? ≠ some digit →
            ¬ 10 ∣ ((code.set place digit).zipIdx.map fun entry =>
              weight entry.2 * entry.1).sum) := by
  refine ⟨exists_fault_iff data, ?_⟩
  intro digits
  obtain ⟨code, check, normal, valid, written⟩ := exists_normalize digits
  have front : (List.replicate (12 - data.length) '0' ++ data.take 12).length = 12 := by
    rw [List.length_append, List.length_replicate, List.length_take]
    omega
  refine ⟨code, normal, valid, ?_, normalize_text normal, ?_⟩
  · rw [written]
    exact List.take_left' front
  · intro place digit inside digitLt wrong
    exact not_dvd_sum_set valid inside digitLt wrong

/-- Five digits become a code, in which an eight in the place of the two is found. -/
theorem normalize_checks_of_five_digits :
    let code := [0, 0, 0, 0, 0, 0, 0, 1, 2, 3, 4, 5, 7]
    (∀ character ∈ "12345".toList, isDecimalDigit character = true) ∧
      normalize "12345".toList = .ok code ∧ normalize (text code) = .ok code ∧
      code[8]? = some 2 ∧
      ¬ 10 ∣ ((code.set 8 8).zipIdx.map fun entry => weight entry.2 * entry.1).sum := by
  intro code
  have digits : ∀ character ∈ "12345".toList, isDecimalDigit character = true := by
    simp [isDecimalDigit]
  have normal : normalize "12345".toList = .ok code := by
    with_unfolding_all rfl
  obtain ⟨found, same, -, -, stable, changed⟩ := (normalize_checks "12345".toList).2 digits
  rw [normal] at same
  cases same
  exact ⟨digits, normal, stable, rfl, changed 8 8 (by decide) (by decide) (by decide)⟩

end LabelPress.Ean13
