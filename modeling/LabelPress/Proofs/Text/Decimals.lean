import LabelPress.Proofs.Text.Digits
import LabelPress.Text.Blank

/-!
# Numbers that are written are read back

A number is written with its decimal digits, behind a minus sign if it is negative.  Reading takes
back what was written (`integer?_toString`), and trimming leaves it alone (`trim_toString`).
-/

namespace LabelPress.Text

/-! ## Digits -/

theorem digitsFrom?_of_digits
    {text : List Char}
    (digits : ∀ character ∈ text, isDecimalDigit character = true)
    (accumulated : Nat) :
    digitsFrom? accumulated text = some (Nat.ofDigitChars 10 text accumulated) := by
  induction text generalizing accumulated with
  | nil =>
      rw [Nat.ofDigitChars_nil]
      rfl
  | cons character text ih =>
      obtain ⟨first, later⟩ := List.forall_mem_cons.mp digits
      have range : '0' ≤ character ∧ character ≤ '9' := by
        simpa [isDecimalDigit] using first
      have digit : decimalDigit? character = some (character.toNat - '0'.toNat) := if_pos range
      rw [digitsFrom?, digit, Nat.ofDigitChars_cons]
      exact ih later _

theorem isDecimalDigit_of_mem_toDigits
    {number : Nat} :
    ∀ character ∈ Nat.toDigits 10 number, isDecimalDigit character = true := by
  intro character member
  exact Nat.isDigit_of_mem_toDigits (by decide) (by decide) member

theorem digits?_toDigits (number : Nat) : digits? (Nat.toDigits 10 number) = some number := by
  have read := digitsFrom?_of_digits (@isDecimalDigit_of_mem_toDigits number) 0
  rw [Nat.ofDigitChars_toDigits (by decide) (by decide)] at read
  cases written : Nat.toDigits 10 number with
  | nil =>
      exact absurd written Nat.toDigits_ne_nil
  | cons first others =>
      rw [written] at read
      exact read

theorem not_mem_toDigits
    {character : Char}
    (notDigit : isDecimalDigit character = false)
    (number : Nat) :
    character ∉ Nat.toDigits 10 number := by
  intro member
  rw [isDecimalDigit_of_mem_toDigits character member] at notDigit
  cases notDigit

theorem natural?_toDigits (number : Nat) : natural? (Nat.toDigits 10 number) = some number := by
  unfold natural?
  split
  · rename_i written
    have plus : '+' ∈ Nat.toDigits 10 number := written ▸ List.mem_cons_self
    exact absurd plus (not_mem_toDigits (by decide) number)
  · exact digits?_toDigits number

/-! ## Numbers with a sign -/

theorem integer?_of_digits
    {text : List Char}
    (digits : ∀ character ∈ text, isDecimalDigit character = true) :
    integer? text = (digits? text).map Int.ofNat := by
  unfold integer?
  split
  · exact absurd (digits '+' List.mem_cons_self) (by decide)
  · exact absurd (digits '-' List.mem_cons_self) (by decide)
  · rfl

/-- A number is written with its digits alone, or with a minus sign in front of them. -/
theorem toList_toString_cases (number : Int) :
    (∃ natural : Nat, number = natural ∧
        (toString number).toList = Nat.toDigits 10 natural) ∨
      ∃ natural : Nat, number = -natural ∧
        (toString number).toList = '-' :: Nat.toDigits 10 natural := by
  cases number with
  | ofNat natural =>
      exact Or.inl ⟨natural, rfl, Nat.toList_repr⟩
  | negSucc natural =>
      refine Or.inr ⟨natural + 1, rfl, ?_⟩
      have spelled : toString (Int.negSucc natural) = "-" ++ (natural + 1).repr := rfl
      rw [spelled, String.toList_append, Nat.toList_repr]
      rfl

theorem integer?_toString (number : Int) : integer? (toString number).toList = some number := by
  rcases toList_toString_cases number with ⟨natural, rfl, written⟩ | ⟨natural, rfl, written⟩
  · rw [written, integer?_of_digits isDecimalDigit_of_mem_toDigits, digits?_toDigits]
    rfl
  · rw [written, integer?, digits?_toDigits]
    rfl

theorem toList_toString_ne_nil (number : Int) : (toString number).toList ≠ [] := by
  rcases toList_toString_cases number with ⟨natural, -, written⟩ | ⟨natural, -, written⟩
  · rw [written]
    exact Nat.toDigits_ne_nil
  · rw [written]
    exact List.cons_ne_nil _ _

theorem eq_minus_or_digit_of_mem
    {number : Int} :
    ∀ character ∈ (toString number).toList,
      character = '-' ∨ isDecimalDigit character = true := by
  intro character member
  rcases toList_toString_cases number with ⟨natural, -, written⟩ | ⟨natural, -, written⟩
  · rw [written] at member
    exact Or.inr (isDecimalDigit_of_mem_toDigits character member)
  · rw [written, List.mem_cons] at member
    exact member.imp_right (isDecimalDigit_of_mem_toDigits character)

/-! ## Trimming -/

theorem dropWhile_isBlank_of_plain
    {text : List Char}
    (plain : ∀ character ∈ text, isBlank character = false) :
    text.dropWhile isBlank = text := by
  cases text with
  | nil =>
      rfl
  | cons character text =>
      exact List.dropWhile_cons_of_neg (by simp [plain character List.mem_cons_self])

theorem trim_of_plain
    {text : List Char}
    (plain : ∀ character ∈ text, isBlank character = false) :
    trim text = text := by
  have plainReverse : ∀ character ∈ text.reverse, isBlank character = false := by
    intro character member
    exact plain character (List.mem_reverse.mp member)
  rw [trim, trimStart, dropWhile_isBlank_of_plain plain, trimEnd,
    dropWhile_isBlank_of_plain plainReverse, List.reverse_reverse]

theorem not_isBlank_of_digit
    {character : Char}
    (digit : isDecimalDigit character = true) :
    isBlank character = false := by
  obtain ⟨value, found⟩ := exists_decimalDigit? digit
  obtain ⟨small, rfl⟩ := eq_ofNat_of_decimalDigit? found
  have all : ∀ value < 10, isBlank (Char.ofNat ('0'.toNat + value)) = false := by decide
  exact all value small

theorem trim_toDigits (number : Nat) :
    trim (Nat.toDigits 10 number) = Nat.toDigits 10 number :=
  trim_of_plain fun character member =>
    not_isBlank_of_digit (isDecimalDigit_of_mem_toDigits character member)

theorem trim_toString (number : Int) :
    trim (toString number).toList = (toString number).toList := by
  apply trim_of_plain
  intro character member
  rcases eq_minus_or_digit_of_mem character member with rfl | digit
  · decide
  · exact not_isBlank_of_digit digit

/-- A written number holds no character but digits and the minus sign. -/
theorem not_mem_toString
    {character : Char}
    (notMinus : character ≠ '-')
    (notDigit : isDecimalDigit character = false)
    (number : Int) :
    character ∉ (toString number).toList := by
  intro member
  rcases eq_minus_or_digit_of_mem character member with minus | digit
  · exact notMinus minus
  · rw [notDigit] at digit
    cases digit

end LabelPress.Text
