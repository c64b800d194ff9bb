/-!
# Big-endian numbers

Numbers written as bytes, the highest byte first.
-/

namespace LabelPress.BigEndian

/-- The number that `bytes` stand for. -/
def number (bytes : List UInt8) : Nat :=
  bytes.foldl (fun value byte => 256 * value + byte.toNat) 0

/-- The `count` lowest bytes of a number. -/
def bytes (count value : Nat) : List UInt8 :=
  match count with
  | 0 => []
  | count + 1 => bytes count (value / 256) ++ [UInt8.ofNat value]

@[simp]
theorem length_bytes (count value : Nat) : (bytes count value).length = count := by
  induction count generalizing value with
  | zero => rfl
  | succ count ih => simp [bytes, ih]

/-- A number that fits is read back from its bytes. -/
theorem number_bytes (count value : Nat) (fits : value < Nat.pow 256 count) :
    number (bytes count value) = value := by
  induction count generalizing value with
  | zero =>
    have zero : value = 0 := Nat.lt_one_iff.mp fits
    simp [bytes, number, zero]
  | succ count ih =>
    have higher : value / 256 < Nat.pow 256 count := by
      apply Nat.div_lt_of_lt_mul
      rw [Nat.mul_comm]
      exact fits
    have known := ih (value / 256) higher
    simp only [number] at known
    simp only [bytes, number, List.foldl_append, known, List.foldl_cons, List.foldl_nil,
      UInt8.toNat_ofNat']
    omega

end LabelPress.BigEndian
