import Mathlib

/-!
# Where floating-point arithmetic stays finite

The arithmetic of floats unpacks its operands, rounds the exact result and packs it again.  A bound
on the exponents of the operands (`ExponentAtMost`) bounds the exponent of a product
(`exponentAtMost_mul`) and, if the divisor is not too small (`AtLeastPower`), that of a quotient
(`exponentAtMost_div`); exponents up to 971 are packed.  Products of finite floats are finite or
infinite, but never undefined (`isFinite_mul`).
-/

namespace LabelPress

open Float.Model (UnpackedFloat Format)
open Float.Model.UnpackedFloat (Accuracy ExtendedMantissa)

/-- Zero, or a finite float with an exponent up to a bound. -/
inductive ExponentAtMost (bound : Int) : UnpackedFloat → Prop where
  | zero (sign : UnpackedFloat.Sign) : ExponentAtMost bound (.zero sign)
  | finite {sign : UnpackedFloat.Sign} {mantissa : Nat} {exponent : Int} {positive : 0 < mantissa}
      (small : exponent ≤ bound) :
      ExponentAtMost bound (.finite sign mantissa exponent positive)

/-- A float of full precision whose absolute value is at least a power of two. -/
inductive AtLeastPower (least : Int) : UnpackedFloat → Prop where
  | finite {sign : UnpackedFloat.Sign} {mantissa : Nat} {exponent : Int} {positive : 0 < mantissa}
      (precise : mantissa.log2 = 52) (great : least ≤ exponent + 52) :
      AtLeastPower least (.finite sign mantissa exponent positive)

instance {bound : Int} : (number : UnpackedFloat) → Decidable (ExponentAtMost bound number)
  | .zero sign => .isTrue (.zero sign)
  | .finite _ _ exponent _ =>
    decidable_of_iff (exponent ≤ bound) ⟨.finite, fun | .finite small => small⟩
  | .infinity _ | .notANumber => .isFalse nofun

instance {least : Int} : (number : UnpackedFloat) → Decidable (AtLeastPower least number)
  | .finite _ mantissa exponent _ =>
    decidable_of_iff (mantissa.log2 = 52 ∧ least ≤ exponent + 52)
      ⟨fun both => .finite both.1 both.2, fun | .finite precise great => ⟨precise, great⟩⟩
  | .zero _ | .infinity _ | .notANumber => .isFalse nofun

theorem ExponentAtMost.mono {bound higher : Int} (le : bound ≤ higher) {number : UnpackedFloat}
    (small : ExponentAtMost bound number) : ExponentAtMost higher number := by
  cases small with
  | zero sign => exact .zero sign
  | finite small => exact .finite (Int.le_trans small le)

theorem ExponentAtMost.isFinite {bound : Int} {number : UnpackedFloat}
    (small : ExponentAtMost bound number) : number.isFinite = true := by
  cases small <;> rfl

theorem AtLeastPower.mono {least lower : Int} (le : lower ≤ least) {number : UnpackedFloat}
    (great : AtLeastPower least number) : AtLeastPower lower number := by
  cases great with
  | finite precise great => exact .finite precise (Int.le_trans le great)

/-! ## Rounding -/

theorem mantissa_shiftRight (number : ExtendedMantissa) (count : Nat) :
    (number >>> count).mantissa = number.mantissa / 2 ^ count := by
  induction count with
  | zero =>
      simp [HShiftRight.hShiftRight, Nat.repeat]
  | succ count ih =>
      have step : (number >>> (count + 1)).mantissa = (number >>> count).mantissa / 2 := rfl
      rw [step, ih, Nat.div_div_eq_div_mul, Nat.pow_succ]

theorem roundedMantissa_le (number : ExtendedMantissa) :
    number.roundedMantissa ≤ number.mantissa + 1 := by
  rcases number with ⟨mantissa, round, sticky⟩
  cases round <;> cases sticky <;>
    simp only [ExtendedMantissa.roundedMantissa, ExtendedMantissa.accuracy,
      Accuracy.roundToNearestEven] <;>
    omega

theorem mantissa_ofMantissaAndAccuracy (mantissa : Nat) (accuracy : Accuracy) :
    (ExtendedMantissa.ofMantissaAndAccuracy mantissa accuracy).mantissa = mantissa := by
  cases accuracy with
  | exact => rfl
  | inexact order => cases order <;> rfl

/-- Rounding keeps at most one bit more than the shifted mantissa has. -/
theorem log2_roundedMantissa_le (mantissa shift : Nat) (accuracy : Accuracy) :
    (ExtendedMantissa.ofMantissaAndAccuracy mantissa accuracy >>> shift).roundedMantissa.log2 ≤
      mantissa.log2 + 1 - shift := by
  have rounded := roundedMantissa_le
    (ExtendedMantissa.ofMantissaAndAccuracy mantissa accuracy >>> shift)
  rw [mantissa_shiftRight, mantissa_ofMantissaAndAccuracy] at rounded
  have shifted : mantissa / 2 ^ shift < 2 ^ (mantissa.log2 + 1 - shift) := by
    rw [Nat.div_lt_iff_lt_mul (Nat.two_pow_pos shift), ← Nat.pow_add]
    exact Nat.lt_of_lt_of_le Nat.lt_log2_self
      (Nat.pow_le_pow_right (by decide) (by omega))
  have bound := Nat.le_trans rounded shifted
  by_cases zero : (ExtendedMantissa.ofMantissaAndAccuracy mantissa accuracy >>>
      shift).roundedMantissa = 0
  · rw [zero]
    exact Nat.zero_le _
  · have power := Nat.le_trans (Nat.log2_self_le zero) bound
    exact (Nat.pow_le_pow_iff_right (by decide)).mp power

theorem targetExponent_binary64 (total : Int) :
    Format.binary64.targetExponent total = max (total - 53) (-1074) :=
  rfl

theorem totalExponent_eq (mantissa : Nat) (exponent : Int) :
    Float.Model.totalExponent mantissa exponent = mantissa.log2 + 1 + exponent :=
  rfl

theorem targetExponent_eq (mantissa : Nat) (exponent : Int) :
    Format.binary64.targetExponent (Float.Model.totalExponent mantissa exponent) =
      max (mantissa.log2 + exponent - 52) (-1074) := by
  rw [targetExponent_binary64, totalExponent_eq]
  omega

theorem shiftLeft_lt_two_pow (number shift : Nat) :
    number <<< shift < 2 ^ (number.log2 + 1 + shift) := by
  rw [Nat.shiftLeft_eq, Nat.pow_add]
  exact Nat.mul_lt_mul_of_pos_right Nat.lt_log2_self (Nat.two_pow_pos shift)

theorem log2_shiftLeft_le (number shift : Nat) :
    (number <<< shift).log2 ≤ number.log2 + shift := by
  by_cases zero : number <<< shift = 0
  · rw [zero, Nat.log2_zero]
    exact Nat.zero_le _
  · refine Nat.le_of_lt_succ ((Nat.log2_lt zero).mpr ?_)
    rw [Nat.succ_eq_add_one, Nat.add_right_comm]
    exact shiftLeft_lt_two_pow number shift

/-- The exponent grows only as far as the mantissa needs it. -/
theorem exponentAtMost_roundWithAccuracy (sign : UnpackedFloat.Sign) (mantissa : Nat)
    (exponent : Int) (accuracy : Accuracy) :
    ExponentAtMost (max exponent (max (mantissa.log2 + exponent - 51) (-1073)))
      (UnpackedFloat.roundWithAccuracy Format.binary64 sign mantissa exponent accuracy) := by
  unfold UnpackedFloat.roundWithAccuracy UnpackedFloat.shiftToTargetExponent
    UnpackedFloat.shiftToExponent
  simp only [targetExponent_eq]
  split
  · exact .zero sign
  · have bits := log2_roundedMantissa_le mantissa
      (max (mantissa.log2 + exponent - 52) (-1074) - exponent).toNat accuracy
    refine .finite ?_
    omega

theorem exponentAtMost_round (sign : UnpackedFloat.Sign) (mantissa : Nat) (exponent : Int) :
    ExponentAtMost (max exponent (max (mantissa.log2 + exponent - 51) (-1073)))
      (UnpackedFloat.round Format.binary64 sign mantissa exponent) := by
  unfold UnpackedFloat.round UnpackedFloat.decreaseExponent
  simp only [targetExponent_eq]
  refine (exponentAtMost_roundWithAccuracy _ _ _ _).mono ?_
  have bits := log2_shiftLeft_le mantissa
    (exponent - max (mantissa.log2 + exponent - 52) (-1074)).toNat
  omega

theorem mantissa_le_roundedMantissa (number : ExtendedMantissa) :
    number.mantissa ≤ number.roundedMantissa := by
  rcases number with ⟨mantissa, round, sticky⟩
  cases round <;> cases sticky <;>
    simp only [ExtendedMantissa.roundedMantissa, ExtendedMantissa.accuracy,
      Accuracy.roundToNearestEven] <;>
    omega

theorem log2_div_two_pow (number shift : Nat) :
    (number / 2 ^ shift).log2 = number.log2 - shift := by
  rw [Nat.log2_eq_log_two, Nat.log2_eq_log_two]
  exact Nat.log_div_base_pow 2 number shift

/-- Rounding loses no more bits than are shifted away. -/
theorem log2_sub_le_log2_roundedMantissa (mantissa shift : Nat) (accuracy : Accuracy) :
    mantissa.log2 - shift ≤
      (ExtendedMantissa.ofMantissaAndAccuracy mantissa accuracy >>>
        shift).roundedMantissa.log2 := by
  have rounded := mantissa_le_roundedMantissa
    (ExtendedMantissa.ofMantissaAndAccuracy mantissa accuracy >>> shift)
  rw [mantissa_shiftRight, mantissa_ofMantissaAndAccuracy] at rounded
  rw [← log2_div_two_pow, Nat.log2_eq_log_two, Nat.log2_eq_log_two]
  exact Nat.log_mono_right rounded

theorem log2_mantissa_shiftRight {mantissa : Nat} (accuracy : Accuracy)
    (bits : 52 ≤ mantissa.log2) :
    (ExtendedMantissa.ofMantissaAndAccuracy mantissa accuracy >>>
      (mantissa.log2 - 52)).mantissa.log2 = 52 := by
  rw [mantissa_shiftRight, mantissa_ofMantissaAndAccuracy, log2_div_two_pow]
  omega

/-- A mantissa of 53 bits or more is rounded to 53 bits and not below a power of two. -/
theorem atLeastPower_roundWithAccuracy (sign : UnpackedFloat.Sign) {mantissa : Nat}
    {exponent : Int} (accuracy : Accuracy) (bits : 52 ≤ mantissa.log2)
    (normal : -1022 ≤ mantissa.log2 + exponent) :
    AtLeastPower (mantissa.log2 + exponent)
      (UnpackedFloat.roundWithAccuracy Format.binary64 sign mantissa exponent accuracy) := by
  have shift : (max (mantissa.log2 + exponent - 52) (-1074) - exponent).toNat =
      mantissa.log2 - 52 := by
    omega
  have rounded := log2_sub_le_log2_roundedMantissa mantissa (mantissa.log2 - 52) accuracy
  have long : 52 ≤ (ExtendedMantissa.ofMantissaAndAccuracy mantissa accuracy >>>
      (mantissa.log2 - 52)).roundedMantissa.log2 := by
    omega
  have again (first : Nat) (long : 52 ≤ first.log2) :
      (max (first.log2 + (exponent + (mantissa.log2 - 52 : Nat)) - 52) (-1074) -
        (exponent + (mantissa.log2 - 52 : Nat))).toNat = first.log2 - 52 := by
    omega
  unfold UnpackedFloat.roundWithAccuracy UnpackedFloat.shiftToTargetExponent
    UnpackedFloat.shiftToExponent
  simp only [targetExponent_eq, shift, again _ long]
  have precise := log2_mantissa_shiftRight .exact long
  split
  · rename_i zero
    rw [zero, Nat.log2_zero] at precise
    cases precise
  · refine .finite precise ?_
    omega

/-! ## Packing -/

/-- Packed numbers whose exponent bits are not all set are zero or finite. -/
theorem exponentAtMost_unpack_packComponents (sign : UnpackedFloat.Sign) {exponent : BitVec 11}
    (notSpecial : exponent ≠ -1#11) (mantissa : BitVec 52) :
    ExponentAtMost (max (exponent.toNat - 1075) (-1074))
      (UnpackedFloat.unpack Format.binary64
        (UnpackedFloat.packComponents Format.binary64 sign exponent mantissa)) := by
  unfold UnpackedFloat.unpack
  simp only [UnpackedFloat.unpackMantissa_packComponents,
    UnpackedFloat.unpackExponent_packComponents, if_neg notSpecial]
  split
  · rename_i zero
    split
    · exact .zero _
    · subst zero
      refine .finite ?_
      simp only [Format.exponentBias, BitVec.toNat_zero]
      omega
  · refine .finite ?_
    simp only [Format.exponentBias]
    omega

theorem unpack_pack (number : UnpackedFloat) :
    (Float.Model.pack number).unpack =
      UnpackedFloat.unpack Format.binary64 (UnpackedFloat.pack Format.binary64 number) :=
  rfl

theorem pack_finite (sign : UnpackedFloat.Sign) {mantissa : Nat} (exponent : Int)
    (positive : 0 < mantissa) :
    UnpackedFloat.pack Format.binary64 (.finite sign mantissa exponent positive) =
      if 2047 ≤ (exponent + 1075).toNat then UnpackedFloat.packedInfinity Format.binary64 sign
      else if mantissa.log2 = 52 then
        UnpackedFloat.packComponents Format.binary64 sign (BitVec.ofNat 11 (exponent + 1075).toNat)
          (BitVec.ofNat 52 mantissa)
      else UnpackedFloat.packComponents Format.binary64 sign 0#11 (BitVec.ofNat 52 mantissa) := by
  have packed : UnpackedFloat.pack Format.binary64 (.finite sign mantissa exponent positive) =
      if 2 ^ 11 ≤ (exponent + 1023 + 52).toNat + 1 then
        UnpackedFloat.packedInfinity Format.binary64 sign
      else if mantissa.log2 + 1 = 53 then
        UnpackedFloat.packComponents Format.binary64 sign
          (BitVec.ofNat 11 (exponent + 1023 + 52).toNat) (BitVec.ofNat 52 mantissa)
      else UnpackedFloat.packComponents Format.binary64 sign 0#11 (BitVec.ofNat 52 mantissa) :=
    rfl
  have bias : exponent + 1023 + 52 = exponent + 1075 := by omega
  have limit : 2 ^ 11 ≤ (exponent + 1075).toNat + 1 ↔ 2047 ≤ (exponent + 1075).toNat := by omega
  have bits : mantissa.log2 + 1 = 53 ↔ mantissa.log2 = 52 := by omega
  simp only [packed, bias, bits, limit]

theorem exponentAtMost_unpack_pack {bound : Int} (lower : -1074 ≤ bound) (upper : bound ≤ 971)
    {number : UnpackedFloat} (small : ExponentAtMost bound number) :
    ExponentAtMost bound (Float.Model.pack number).unpack := by
  have zeros : (0#11 : BitVec 11) ≠ -1#11 := by decide
  have ones : (-1#11 : BitVec 11).toNat = 2047 := by decide
  rw [unpack_pack]
  cases small with
  | zero sign =>
      rw [UnpackedFloat.pack, UnpackedFloat.unpack_packedZero]
      exact .zero sign
  | @finite sign mantissa exponent positive range =>
      rw [pack_finite, if_neg (by omega)]
      split
      · have code : (BitVec.ofNat 11 (exponent + 1075).toNat).toNat = (exponent + 1075).toNat := by
          rw [BitVec.toNat_ofNat]
          exact Nat.mod_eq_of_lt (by omega)
        refine (exponentAtMost_unpack_packComponents sign ?_ _).mono ?_
        · intro special
          have codes := congrArg BitVec.toNat special
          omega
        · omega
      · refine (exponentAtMost_unpack_packComponents sign zeros _).mono ?_
        rw [BitVec.toNat_zero]
        omega

/-- The bit in front of a packed mantissa is its 53rd. -/
theorem log2_one_append (mantissa : BitVec 52) : (1#1 ++ mantissa).toNat.log2 = 52 := by
  have bits : (1#1 ++ mantissa).toNat = 1 <<< 52 + mantissa.toNat := by
    rw [BitVec.toNat_append, Nat.shiftLeft_add_eq_or_of_lt mantissa.isLt]
    rfl
  have small := mantissa.isLt
  rw [bits, Nat.log2_eq_iff (by omega)]
  omega

/-- Floats of full precision are packed as they are. -/
theorem atLeastPower_unpack_pack {least : Int} (normal : -1022 ≤ least) {number : UnpackedFloat}
    (small : ExponentAtMost 971 number) (great : AtLeastPower least number) :
    AtLeastPower least (Float.Model.pack number).unpack := by
  have ones : (-1#11 : BitVec 11).toNat = 2047 := by decide
  rw [unpack_pack]
  cases great with
  | @finite sign mantissa exponent positive bits range =>
      have upper : exponent ≤ 971 := by
        cases small with
        | finite upper => exact upper
      have code : (BitVec.ofNat 11 (exponent + 1075).toNat).toNat = (exponent + 1075).toNat := by
        rw [BitVec.toNat_ofNat]
        exact Nat.mod_eq_of_lt (by omega)
      have notSpecial : BitVec.ofNat 11 (exponent + 1075).toNat ≠ -1#11 := by
        intro special
        have codes := congrArg BitVec.toNat special
        omega
      have notZero : BitVec.ofNat 11 (exponent + 1075).toNat ≠ 0#11 := by
        intro zero
        have codes := congrArg BitVec.toNat zero
        rw [BitVec.toNat_zero] at codes
        omega
      rw [pack_finite, if_neg (by omega), if_pos bits]
      unfold UnpackedFloat.unpack
      simp only [UnpackedFloat.unpackMantissa_packComponents,
        UnpackedFloat.unpackExponent_packComponents, if_neg notSpecial, if_neg notZero]
      refine .finite (log2_one_append _) ?_
      simp only [Format.exponentBias]
      omega

theorem isInf_unpack_packedInfinity (sign : UnpackedFloat.Sign) :
    (UnpackedFloat.unpack Format.binary64
      (UnpackedFloat.packedInfinity Format.binary64 sign)).isInf = true := by
  unfold UnpackedFloat.packedInfinity UnpackedFloat.unpack
  simp only [UnpackedFloat.unpackMantissa_packComponents,
    UnpackedFloat.unpackExponent_packComponents, if_true]
  rfl

/-- A number with a greater exponent is packed as infinite, so no defined number becomes
undefined. -/
theorem isInf_or_isFinite_unpack_pack {number : UnpackedFloat} (finite : number.isFinite = true) :
    (Float.Model.pack number).unpack.isInf = true ∨
      (Float.Model.pack number).unpack.isFinite = true := by
  cases number with
  | infinity | notANumber =>
      cases finite
  | zero sign =>
      have small : ExponentAtMost 0 (.zero sign) := .zero sign
      exact .inr (exponentAtMost_unpack_pack (by decide) (by decide) small).isFinite
  | finite sign mantissa exponent positive =>
      by_cases upper : exponent ≤ 971
      · have small : ExponentAtMost 971 (.finite sign mantissa exponent positive) :=
          .finite upper
        exact .inr (exponentAtMost_unpack_pack (by decide) (by decide) small).isFinite
      · rw [unpack_pack, pack_finite, if_pos (by omega)]
        exact .inl (isInf_unpack_packedInfinity sign)

/-- A float has at most 53 bits. -/
theorem log2_mantissa_le {model : Float.Model} {sign : UnpackedFloat.Sign} {mantissa : Nat}
    {exponent : Int} {positive : 0 < mantissa}
    (unpacked : model.unpack = .finite sign mantissa exponent positive) : mantissa.log2 ≤ 52 := by
  have small : mantissa < 2 ^ 53 := by
    unfold Float.Model.unpack UnpackedFloat.unpack at unpacked
    simp only at unpacked
    split at unpacked
    · split at unpacked <;> cases unpacked
    · split at unpacked
      · split at unpacked
        · cases unpacked
        · cases unpacked
          exact Nat.lt_trans (BitVec.isLt _) (by decide)
      · cases unpacked
        exact BitVec.isLt _
  exact Nat.le_of_lt_succ ((Nat.log2_lt (Nat.ne_of_gt positive)).mpr small)

/-! ## Arithmetic -/

/-- The product of finite numbers is rounded once. -/
theorem mul_finite (leftSign rightSign : UnpackedFloat.Sign) (left right : Nat)
    (leftExponent rightExponent : Int) (leftPositive : 0 < left) (rightPositive : 0 < right) :
    UnpackedFloat.mul Format.binary64 (.finite leftSign left leftExponent leftPositive)
        (.finite rightSign right rightExponent rightPositive) =
      UnpackedFloat.roundWithAccuracy Format.binary64 (leftSign * rightSign) (left * right)
        (leftExponent + rightExponent) .exact :=
  rfl

theorem isFinite_roundWithAccuracy (sign : UnpackedFloat.Sign) (mantissa : Nat) (exponent : Int)
    (accuracy : Accuracy) :
    (UnpackedFloat.roundWithAccuracy Format.binary64 sign mantissa exponent
      accuracy).isFinite = true :=
  (exponentAtMost_roundWithAccuracy sign mantissa exponent accuracy).isFinite

/-- A product of finite floats that is not infinite is finite. -/
theorem isFinite_mul {first second : Float} (firstFinite : first.isFinite = true)
    (secondFinite : second.isFinite = true) (notInf : (first * second).isInf = false) :
    (first * second).isFinite = true := by
  have product : (UnpackedFloat.mul Format.binary64 first.toModel.unpack
      second.toModel.unpack).isFinite = true := by
    have firstUnpacked : first.toModel.unpack.isFinite = true := firstFinite
    have secondUnpacked : second.toModel.unpack.isFinite = true := secondFinite
    generalize first.toModel.unpack = left at firstUnpacked
    generalize second.toModel.unpack = right at secondUnpacked
    cases left with
    | infinity | notANumber => cases firstUnpacked
    | zero sign =>
        cases right with
        | infinity | notANumber => cases secondUnpacked
        | zero | finite => rfl
    | finite sign mantissa exponent positive =>
        cases right with
        | infinity | notANumber => cases secondUnpacked
        | zero => rfl
        | finite => exact isFinite_roundWithAccuracy _ _ _ _
  have packed := isInf_or_isFinite_unpack_pack product
  have infinite : (Float.Model.pack (UnpackedFloat.mul Format.binary64 first.toModel.unpack
      second.toModel.unpack)).unpack.isInf = false := notInf
  rw [infinite] at packed
  exact packed.resolve_left Bool.false_ne_true

theorem log2_shiftLeft_div_add_le {first second shift : Nat} (secondPositive : 0 < second)
    (nonzero : (first <<< shift) / second ≠ 0) :
    ((first <<< shift) / second).log2 + second.log2 ≤ first.log2 + shift := by
  have quotient := Nat.log2_self_le nonzero
  have divisor := Nat.log2_self_le (Nat.ne_of_gt secondPositive)
  have shifted := shiftLeft_lt_two_pow first shift
  have product : 2 ^ (((first <<< shift) / second).log2 + second.log2) ≤ first <<< shift := by
    rw [Nat.pow_add]
    exact Nat.le_trans (Nat.mul_le_mul quotient divisor) (Nat.div_mul_le_self _ _)
  have powers := (Nat.pow_lt_pow_iff_right (by decide)).mp (Nat.lt_of_le_of_lt product shifted)
  omega

/-- Division by a power of two or more lowers the exponent as much, up to the last bit. -/
theorem exponentAtMost_div {first second : Float} {bound least : Int}
    (small : ExponentAtMost bound first.toModel.unpack)
    (great : AtLeastPower least second.toModel.unpack) (lower : -1073 ≤ bound + 1 - least)
    (upper : bound + 1 - least ≤ 971) :
    ExponentAtMost (bound + 1 - least) (first / second).toModel.unpack := by
  have bits := @log2_mantissa_le first.toModel
  have quotient : (first / second).toModel = Float.Model.pack (UnpackedFloat.div Format.binary64
      first.toModel.unpack second.toModel.unpack) :=
    rfl
  rw [quotient]
  generalize first.toModel.unpack = left at small bits
  generalize second.toModel.unpack = right at great
  refine exponentAtMost_unpack_pack (by omega) upper ?_
  cases great with
  | @finite rightSign divisor rightExponent divisorPositive divisorBits rightGreat =>
      cases small with
      | zero =>
          exact .zero _
      | @finite leftSign dividend leftExponent dividendPositive leftSmall =>
          have dividendBits := bits rfl
          have target : Format.binary64.targetExponent
              (Float.Model.totalExponent dividend leftExponent -
                Float.Model.totalExponent divisor rightExponent) =
              max (dividend.log2 + leftExponent - (divisor.log2 + rightExponent) - 53) (-1074) := by
            rw [targetExponent_binary64, totalExponent_eq, totalExponent_eq]
            omega
          simp only [UnpackedFloat.div, UnpackedFloat.divCore, target]
          refine (exponentAtMost_roundWithAccuracy _ _ _ _).mono ?_
          generalize shifted : (leftExponent - rightExponent - min (leftExponent - rightExponent)
            (max (dividend.log2 + leftExponent - (divisor.log2 + rightExponent) - 53)
              (-1074))).toNat = shift
          by_cases zero : (dividend <<< shift) / divisor = 0
          · rw [zero, Nat.log2_zero]
            omega
          · have quotientBits := log2_shiftLeft_div_add_le divisorPositive zero
            omega

theorem log2_mul_le (first second : Nat) :
    (first * second).log2 ≤ first.log2 + second.log2 + 1 := by
  by_cases zero : first * second = 0
  · rw [zero, Nat.log2_zero]
    exact Nat.zero_le _
  · refine Nat.le_of_lt_succ ((Nat.log2_lt zero).mpr ?_)
    have powers : 2 ^ (first.log2 + second.log2 + 1 + 1) =
        2 ^ (first.log2 + 1) * 2 ^ (second.log2 + 1) := by
      rw [← Nat.pow_add]
      congr 1
      omega
    rw [Nat.succ_eq_add_one, powers]
    exact Nat.mul_lt_mul_of_lt_of_lt Nat.lt_log2_self Nat.lt_log2_self

/-- The exponent of a product is not far from the sum of the exponents. -/
theorem exponentAtMost_mul {first second : Float} {firstBound secondBound : Int}
    (firstSmall : ExponentAtMost firstBound first.toModel.unpack)
    (secondSmall : ExponentAtMost secondBound second.toModel.unpack)
    (lower : -1073 ≤ firstBound + secondBound + 54) (upper : firstBound + secondBound + 54 ≤ 971) :
    ExponentAtMost (firstBound + secondBound + 54) (first * second).toModel.unpack := by
  have firstBits := @log2_mantissa_le first.toModel
  have secondBits := @log2_mantissa_le second.toModel
  have product : (first * second).toModel = Float.Model.pack (UnpackedFloat.mul Format.binary64
      first.toModel.unpack second.toModel.unpack) :=
    rfl
  rw [product]
  generalize first.toModel.unpack = left at firstSmall firstBits
  generalize second.toModel.unpack = right at secondSmall secondBits
  refine exponentAtMost_unpack_pack (by omega) upper ?_
  cases firstSmall with
  | zero =>
      cases secondSmall <;> exact .zero _
  | @finite leftSign leftMantissa leftExponent leftPositive leftRange =>
      cases secondSmall with
      | zero =>
          exact .zero _
      | @finite rightSign rightMantissa rightExponent rightPositive rightRange =>
          have leftBits := firstBits rfl
          have rightBits := secondBits rfl
          have productBits := log2_mul_le leftMantissa rightMantissa
          refine (exponentAtMost_roundWithAccuracy _ _ _ _).mono ?_
          omega

theorem toNat_le_of_ne {exponent : BitVec 11} (notSpecial : exponent ≠ -1#11) :
    exponent.toNat ≤ 2046 := by
  have ones : (-1#11 : BitVec 11).toNat = 2047 := by decide
  have bound := exponent.isLt
  have different : exponent.toNat ≠ 2047 := fun same =>
    notSpecial (BitVec.eq_of_toNat_eq (same.trans ones.symm))
  omega

/-- The exponent of a finite float is one that can be packed. -/
theorem exponentAtMost_of_isFinite {number : Float} (finite : number.isFinite = true) :
    ExponentAtMost 971 number.toModel.unpack := by
  have unpacked : number.toModel.unpack.isFinite = true := finite
  have bias : (Format.binary64.exponentBias : Int) = 1023 := rfl
  unfold Float.Model.unpack UnpackedFloat.unpack at unpacked ⊢
  simp only at unpacked ⊢
  generalize @UnpackedFloat.unpackExponent Format.binary64 number.toModel.toBits.toBitVec = code
    at unpacked ⊢
  split
  · rename_i special
    rw [if_pos special] at unpacked
    split at unpacked <;> cases unpacked
  · rename_i notSpecial
    have range : code.toNat ≤ 2046 := toNat_le_of_ne notSpecial
    split
    · rename_i zero
      split
      · exact .zero _
      · subst zero
        refine .finite ?_
        simp only [bias, BitVec.toNat_zero]
        omega
    · refine .finite ?_
      simp only [bias]
      omega

theorem isFinite_neg {number : Float} (finite : number.isFinite = true) :
    (-number).isFinite = true := by
  have small := exponentAtMost_of_isFinite finite
  have negated : (-number).toModel = Float.Model.pack number.toModel.unpack.neg := rfl
  have negatedSmall : ExponentAtMost 971 number.toModel.unpack.neg := by
    generalize number.toModel.unpack = unpacked at small
    cases small with
    | zero => exact .zero _
    | finite small => exact .finite small
  have packed : (-number).toModel.unpack.isFinite = true := by
    rw [negated]
    exact (exponentAtMost_unpack_pack (by decide) (by decide) negatedSmall).isFinite
  exact packed

end LabelPress
