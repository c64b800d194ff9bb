import LabelPress.Proofs.Text.Digits
import LabelPress.Symbology.Ean13
import Mathlib.Algebra.Ring.Nat

/-!
# The digits of an EAN-13 code

Data that hold nothing but digits stand for a code: the first twelve digits, behind zeros if there
are fewer, and a check digit (`exists_normalize`).  The check digit completes the sum of all digits,
in which those at even places count three times, to a multiple of ten (`valid_append_checkDigit`).
-/

namespace LabelPress.Ean13

open LabelPress.Text

/-! ## Twelve digits -/

theorem length_payload (digits : List Nat) : (payload digits).length = 12 := by
  rw [payload, List.length_append, List.length_replicate, List.length_take]
  omega

theorem digit_lt_of_payload {digits : List Nat} (small : ∀ digit ∈ digits, digit < 10) :
    ∀ digit ∈ payload digits, digit < 10 := by
  intro digit member
  rcases List.mem_append.mp member with padding | given
  · rw [(List.mem_replicate.mp padding).2]
    decide
  · exact small digit (List.mem_of_mem_take given)

theorem text_payload (digits : List Nat) :
    text (payload digits) =
      List.replicate (12 - digits.length) '0' ++ (text digits).take 12 := by
  rw [payload, text, List.map_append, List.map_replicate, List.map_take]
  rfl

/-! ## The check digit -/

/-- The weight of a place in a code; the first place has number zero. -/
def weight (place : Nat) : Nat :=
  if place % 2 = 0 then 1 else 3

/-- Thirteen digits whose weighted sum is a multiple of ten. -/
structure Valid (code : List Nat) : Prop where
  length : code.length = 13
  digits : ∀ digit ∈ code, digit < 10
  sum : 10 ∣ (code.zipIdx.map fun entry => weight entry.2 * entry.1).sum

/-- Weights take turns. -/
theorem weight_succ (place : Nat) : weight (place + 1) = 4 - weight place := by
  unfold weight
  split <;> split <;> omega

theorem sum_zipIdx_eq_weightedSum (digits : List Nat) (first : Nat) :
    ((digits.zipIdx first).map fun entry => weight entry.2 * entry.1).sum =
      weightedSum (weight first) digits := by
  induction digits generalizing first with
  | nil =>
      rfl
  | cons digit digits ih =>
      rw [List.zipIdx_cons, List.map_cons, List.sum_cons, ih, weight_succ]
      rfl

theorem valid_append_checkDigit
    {digits : List Nat}
    (length : digits.length = 12)
    (small : ∀ digit ∈ digits, digit < 10) :
    Valid (digits ++ [checkDigit digits]) where
  length := by
    rw [List.length_append, length]
    rfl
  digits := by
    intro digit member
    rcases List.mem_append.mp member with given | check
    · exact small digit given
    · rw [List.mem_singleton.mp check]
      exact Nat.mod_lt _ (by decide)
  sum := by
    have front := sum_zipIdx_eq_weightedSum digits 0
    have last : weight (0 + digits.length) = 1 := by
      rw [length]
      rfl
    rw [List.zipIdx_append, List.map_append, List.sum_append, front]
    change 10 ∣ weightedSum 1 digits +
      (weight (0 + digits.length) * checkDigit digits + 0)
    rw [last, checkDigit]
    omega

/-! ## Data of digits -/

theorem digit_lt_of_data (data : List Char) :
    ∀ digit ∈ payload (data.filterMap decimalDigit?), digit < 10 :=
  digit_lt_of_payload lt_of_mem_filterMap

theorem digit_lt_of_normalize
    {data : List Char}
    {digits : List Nat}
    (normal : normalize data = .ok digits) :
    ∀ digit ∈ digits, digit < 10 := by
  unfold normalize at normal
  split at normal
  · cases normal
  · cases normal
    exact (valid_append_checkDigit (length_payload _) (digit_lt_of_data data)).digits

/-- Data of digits stand for a valid code, whose text shows what becomes of them. -/
theorem exists_normalize
    {data : List Char}
    (digits : ∀ character ∈ data, isDecimalDigit character = true) :
    ∃ code check, normalize data = .ok code ∧ Valid code ∧
      text code = List.replicate (12 - data.length) '0' ++ data.take 12 ++ [check] := by
  have none : data.find? (!isDecimalDigit ·) = none := by
    apply List.find?_eq_none.mpr
    intro character member
    rw [digits character member]
    decide
  have written := map_digitChar_filterMap digits
  have length : (data.filterMap decimalDigit?).length = data.length := by
    rw [← List.length_map, written]
  refine ⟨_, Nat.digitChar (checkDigit (payload (data.filterMap decimalDigit?))), ?_,
    valid_append_checkDigit (length_payload _) (digit_lt_of_data data), ?_⟩
  · rw [normalize, none]
  · have front := text_payload (data.filterMap decimalDigit?)
    rw [length, text, text, written] at front
    rw [text, List.map_append, front]
    rfl

end LabelPress.Ean13
