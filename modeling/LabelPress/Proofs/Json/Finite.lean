import LabelPress.Json.Numeral
import LabelPress.Proofs.Decimal.FloatRange

/-!
# Numerals stand for finite numbers

A numeral is scaled by powers of ten up to the greatest finite one (`powerOfTen_range`), and an
infinite product is refused; quotients cannot become infinite, since a power of ten is never less
than one (`isFinite_of_scaled`).  Hence the float of a numeral is finite (`isFinite_of_number`).
-/

namespace LabelPress

open Float.Model (UnpackedFloat Format)

namespace Json

/-! ## Significands and powers of ten -/

/-- A number too great for exact arithmetic is a rounded product. -/
theorem ofScientific_of_rounded {significand exponent : Nat} (positive : significand ≠ 0)
    (rounded : ¬(significand < 2 ^ 53 ∧ exponent ≤ 22)) (small : exponent ≤ 2048)
    (shifted : 0 < significand <<< 53) (power : 0 < 10 ^ exponent) :
    (Float.ofScientific significand false exponent).toModel =
      Float.Model.pack (UnpackedFloat.mul Format.binary64
        (.finite .positive (significand <<< 53) (-53) shifted)
        (.finite .positive (10 ^ exponent) 0 power)) := by
  have notGreat : ¬(Int.ofNat exponent > 2 ^ Format.binary64.exponentBits) := by
    have bits : (2 : Int) ^ Format.binary64.exponentBits = 2048 := rfl
    rw [bits, Int.ofNat_eq_natCast]
    omega
  have notSmall : ¬(Int.ofNat exponent <
      -(2 ^ Format.binary64.exponentBits + (significand.log2 : Int))) := by
    have bits : (2 : Int) ^ Format.binary64.exponentBits = 2048 := rfl
    rw [bits, Int.ofNat_eq_natCast]
    omega
  have notNegative : 0 ≤ Int.ofNat exponent := Int.natCast_nonneg exponent
  unfold Float.ofScientific
  rw [dif_neg rounded]
  simp only [Bool.false_eq_true, if_false, Float.Model.ofScientific, UnpackedFloat.ofScientific,
    dif_neg positive, if_neg notGreat, if_neg notSmall, if_pos notNegative]
  rfl

theorem exponentAtMost_toFloat (number : UInt64) :
    ExponentAtMost 12 number.toFloat.toModel.unpack := by
  have model : number.toFloat.toModel = Float.Model.pack (UnpackedFloat.normalize Format.binary64
      (number.toNat : Int) 0 .positive) :=
    rfl
  have bits : number.toNat.log2 ≤ 63 := by
    by_cases zero : number.toNat = 0
    · rw [zero, Nat.log2_zero]
      exact Nat.zero_le _
    · exact Nat.le_of_lt_succ ((Nat.log2_lt zero).mpr number.toNat_lt)
  rw [model]
  refine exponentAtMost_unpack_pack (by decide) (by decide) ?_
  unfold UnpackedFloat.normalize
  split
  · rename_i negative
    have order := Int.compare_eq_lt.mp negative
    omega
  · exact .zero _
  · refine (exponentAtMost_round _ _ _).mono ?_
    rw [Int.toNat_natCast]
    omega

theorem exponentAtMost_ofNat_of_exact {significand : Nat} (exact : significand < 2 ^ 53) :
    ExponentAtMost 14 (Float.ofNat significand).toModel.unpack := by
  have one : ExponentAtMost (-52) Float.exactlyRepresentablePowersOfTen[0].toModel.unpack := by
    decide +kernel
  have product : Float.ofNat significand =
      significand.toUInt64.toFloat * Float.exactlyRepresentablePowersOfTen[0] := by
    have scientific : Float.ofNat significand = Float.ofScientific significand false 0 := rfl
    rw [scientific]
    unfold Float.ofScientific
    rw [dif_pos ⟨exact, by decide⟩]
    rfl
  rw [product]
  exact exponentAtMost_mul (exponentAtMost_toFloat _) one (by decide) (by decide)

theorem exponentAtMost_ofNat_of_rounded {significand : Nat} (rounded : 2 ^ 53 ≤ significand)
    (range : significand < 2 ^ 64) :
    ExponentAtMost 14 (Float.ofNat significand).toModel.unpack := by
  have scientific : Float.ofNat significand = Float.ofScientific significand false 0 := rfl
  have positive : significand ≠ 0 := by omega
  have shifted : 0 < significand <<< 53 := by
    rw [Nat.shiftLeft_eq]
    omega
  have bits : (significand <<< 53 * 10 ^ 0).log2 ≤ 116 := by
    rw [Nat.pow_zero, Nat.mul_one]
    refine Nat.le_of_lt_succ ((Nat.log2_lt (by omega)).mpr ?_)
    rw [Nat.shiftLeft_eq]
    omega
  rw [scientific, ofScientific_of_rounded positive (by omega) (by decide) shifted (by decide),
    mul_finite]
  generalize significand <<< 53 * 10 ^ 0 = mantissa at bits ⊢
  refine exponentAtMost_unpack_pack (by decide) (by decide) ?_
  refine (exponentAtMost_roundWithAccuracy _ _ _ _).mono ?_
  omega

/-- Significands of 64 bits are far from the greatest floats. -/
theorem exponentAtMost_ofNat {significand : Nat} (fits : significand ≤ maxSignificand) :
    ExponentAtMost 14 (Float.ofNat significand).toModel.unpack := by
  rcases Nat.lt_or_ge significand (2 ^ 53) with exact | rounded
  · exact exponentAtMost_ofNat_of_exact exact
  · exact exponentAtMost_ofNat_of_rounded rounded (Nat.lt_succ_of_le fits)

theorem powerOfTen_of_exact :
    ∀ exponent < 23, ExponentAtMost 971 (powerOfTen exponent).toModel.unpack ∧
      AtLeastPower 0 (powerOfTen exponent).toModel.unpack := by
  decide +kernel

-- The greatest power has the greatest exponent, where the bound for rounded products is one more
-- than what is packed; so it is evaluated.
theorem powerOfTen_maxPower :
    ExponentAtMost 971 (powerOfTen maxPower).toModel.unpack ∧
      AtLeastPower 1 (powerOfTen maxPower).toModel.unpack := by
  decide +kernel

theorem powerOfTen_of_rounded {exponent : Nat} (rounded : 22 < exponent)
    (small : exponent < maxPower) :
    ExponentAtMost 971 (powerOfTen exponent).toModel.unpack ∧
      AtLeastPower 0 (powerOfTen exponent).toModel.unpack := by
  have power : 0 < 10 ^ exponent := Nat.pow_pos (by decide)
  have upper : (1 <<< 53 * 10 ^ exponent).log2 ≤ 1072 := by
    refine Nat.le_of_lt_succ ((Nat.log2_lt (by omega)).mpr ?_)
    have greatest : 10 ^ exponent ≤ 10 ^ (maxPower - 1) :=
      Nat.pow_le_pow_right (by decide) (Nat.le_sub_one_of_lt small)
    exact Nat.lt_of_le_of_lt (Nat.mul_le_mul_left _ greatest) (by decide +kernel)
  have lower : 53 ≤ (1 <<< 53 * 10 ^ exponent).log2 := by
    rw [Nat.le_log2 (by omega)]
    omega
  have range : exponent ≤ 2048 := Nat.le_trans (Nat.le_of_lt small) (by decide)
  unfold powerOfTen
  rw [ofScientific_of_rounded (by decide) (by omega) range (by decide) power, mul_finite]
  generalize 1 <<< 53 * 10 ^ exponent = mantissa at upper lower ⊢
  have finite : ExponentAtMost 971 (UnpackedFloat.roundWithAccuracy Format.binary64
      (.positive * .positive) mantissa (-53 + 0) .exact) := by
    refine (exponentAtMost_roundWithAccuracy _ _ _ _).mono ?_
    omega
  have great : AtLeastPower 0 (UnpackedFloat.roundWithAccuracy Format.binary64
      (.positive * .positive) mantissa (-53 + 0) .exact) := by
    refine (atLeastPower_roundWithAccuracy _ .exact (Nat.le_of_succ_le lower) (by omega)).mono ?_
    omega
  exact ⟨exponentAtMost_unpack_pack (by decide) (by decide) finite,
    atLeastPower_unpack_pack (by decide) finite great⟩

/-- Every power of ten up to the greatest finite one is finite and not less than one. -/
theorem powerOfTen_range {exponent : Nat} (small : exponent ≤ maxPower) :
    ExponentAtMost 971 (powerOfTen exponent).toModel.unpack ∧
      AtLeastPower 0 (powerOfTen exponent).toModel.unpack := by
  by_cases exact : exponent < 23
  · exact powerOfTen_of_exact exponent exact
  · rcases Nat.lt_or_eq_of_le small with less | same
    · exact powerOfTen_of_rounded (by omega) less
    · subst same
      exact ⟨powerOfTen_maxPower.1, powerOfTen_maxPower.2.mono (by decide)⟩

/-! ## Numbers -/

/-- Scaling a number that is far from the greatest floats does not leave the finite numbers. -/
theorem isFinite_of_scaled {number scaled : Float} {exponent : Int}
    (small : ExponentAtMost 14 number.toModel.unpack)
    (result : scaled? number exponent = some scaled) : scaled.isFinite = true := by
  fun_induction scaled? number exponent with
  | case1 number exponent notNegative fits product infinite =>
      cases result
  | case2 number exponent notNegative fits product notInfinite =>
      rw [← Option.some.inj result]
      exact isFinite_mul small.isFinite (powerOfTen_range fits).1.isFinite
        (Bool.eq_false_iff.mpr notInfinite)
  | case3 | case6 =>
      rw [← Option.some.inj result]
      exact small.isFinite
  | case4 =>
      cases result
  | case5 number exponent negative fits =>
      rw [← Option.some.inj result]
      exact (exponentAtMost_div small (powerOfTen_range fits).2 (by decide) (by decide)).isFinite
  | case7 number exponent negative great nonzero ih =>
      exact ih (exponentAtMost_div small powerOfTen_maxPower.2 (by decide) (by decide)) result

theorem appendDigits_le {significand : Nat} (fits : significand ≤ maxSignificand)
    (digits : List Nat) : (appendDigits significand digits).1 ≤ maxSignificand := by
  fun_induction appendDigits significand digits with
  | case1 significand => exact fits
  | case2 significand digit digits fitsBehind ih => exact ih fitsBehind
  | case3 => exact fits

theorem parts_le (numeral : Numeral) : numeral.parts.1 ≤ maxSignificand :=
  appendDigits_le (appendDigits_le (Nat.zero_le _) numeral.whole) numeral.fraction

/-- A scaled number, or the fault that stands for its absence. -/
def scaledOr (failure : Failure) : Option Float → Except Failure Float
  | some number => .ok number
  | none => .error failure

theorem isFinite_of_scaledOr {significand : Nat} {power : Int} {failure : Failure} {value : Float}
    (fits : significand ≤ maxSignificand)
    (result : scaledOr failure (scaled? (Float.ofNat significand) power) = .ok value) :
    value.isFinite = true := by
  cases found : scaled? (Float.ofNat significand) power with
  | none =>
      rw [found] at result
      cases result
  | some number =>
      rw [found] at result
      rw [← Except.ok.inj result]
      exact isFinite_of_scaled (exponentAtMost_ofNat fits) found

theorem isFinite_of_magnitude {numeral : Numeral} {rest : List UInt8} {value : Float}
    (result : numeral.magnitude rest = .ok value) : value.isFinite = true := by
  have zero : (0 : Float).isFinite = true := by decide +kernel
  have fits := parts_le numeral
  unfold Numeral.magnitude at result
  simp only at result
  split at result
  · exact isFinite_of_scaledOr fits result
  · split at result
    · split at result
      · cases result
      · rw [← Except.ok.inj result]
        exact zero
    · exact isFinite_of_scaledOr fits result

theorem isFinite_of_wholeNumber {negative : Bool} {significand : Nat} {value : Float}
    (fits : significand ≤ maxSignificand)
    (result : wholeNumber negative significand = .float value) : value.isFinite = true := by
  unfold wholeNumber at result
  split at result
  · split at result
    · cases result
    · rw [← Number.float.inj result]
      exact isFinite_neg (exponentAtMost_ofNat fits).isFinite
  · cases result

/-- The floating-point number of a numeral is finite. -/
theorem isFinite_of_number {numeral : Numeral} {rest : List UInt8} {value : Float}
    (result : numeral.number rest = .ok (.float value)) : value.isFinite = true := by
  unfold Numeral.number at result
  simp only at result
  split at result
  · exact isFinite_of_wholeNumber (appendDigits_le (Nat.zero_le _) _) (Except.ok.inj result)
  · split at result
    · rename_i magnitude found
      have finite := isFinite_of_magnitude found
      cases result
      split
      · exact isFinite_neg finite
      · exact finite
    · cases result

end Json

end LabelPress
