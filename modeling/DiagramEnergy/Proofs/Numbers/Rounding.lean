import Mathlib

/-!
# Floats far from overflow

Rounding moves the exponent of a number to where at most 53 bits are left, and
its carry moves it once more.  So a product is finite or overflows to infinity,
and a quotient stays finite if the exponent of its dividend is bounded and its
divisor is at least one.
-/

namespace DiagramEnergy.Binary64

open Float.Model (totalExponent Format UnpackedFloat)
open Float.Model.UnpackedFloat

/-- Zero, or a finite number whose exponent is at most `bound`. -/
def WithinExponent (bound : Int) : UnpackedFloat → Prop
  | .zero _ => True
  | .finite _ _ exponent _ => exponent ≤ bound
  | _ => False

theorem WithinExponent.isFinite {bound : Int} {number : UnpackedFloat}
    (within : WithinExponent bound number) : number.isFinite = true := by
  cases number <;> first | rfl | cases within

/-! ## Packing -/

/-- The exponent field of infinities and of what is no number. -/
theorem toNat_saturated :
    (-1#_ : BitVec Format.binary64.exponentBits).toNat = 2047 := by
  decide

/-- The exponent field of zero and of the least numbers. -/
theorem toNat_least : (0#_ : BitVec Format.binary64.exponentBits).toNat = 0 ∧
    (0#_ : BitVec Format.binary64.exponentBits) ≠ -1#_ := by
  decide

theorem bias_eq : ((Format.binary64.exponentBias : Int) +
    Format.binary64.mantissaBitsWithoutImplicit) = 1075 := by
  decide

theorem withinExponent_unpack {bits : BitVec Format.binary64.numBits}
    {bound : Int} (low : -1074 ≤ bound)
    (unsaturated : unpackExponent bits ≠ -1#_)
    (high : ((unpackExponent bits).toNat : Int) ≤ bound + 1075) :
    WithinExponent bound (unpack .binary64 bits) := by
  have bias := bias_eq
  fun_cases unpack with
  | case1 => contradiction
  | case2 => contradiction
  | case3 => trivial
  | case4 _ exponents _ _ _ _ least _ =>
      have least : (unpackExponent bits).toNat = 0 := congrArg BitVec.toNat least
      change ((unpackExponent bits).toNat : Int) - _ + 1 ≤ bound
      omega
  | case5 =>
      change ((unpackExponent bits).toNat : Int) - _ ≤ bound
      omega

theorem mantissa_lt_of_unpack {bits : BitVec Format.binary64.numBits}
    {sign : Sign} {mantissa : Nat} {exponent : Int} {positive : 0 < mantissa}
    (unpacked : unpack .binary64 bits = .finite sign mantissa exponent positive) :
    mantissa < 2 ^ 53 := by
  simp only [unpack] at unpacked
  split at unpacked
  · split at unpacked <;> cases unpacked
  · split at unpacked
    · split at unpacked
      · cases unpacked
      · cases unpacked
        exact Nat.lt_trans (BitVec.isLt _) (by decide)
    · cases unpacked
      exact BitVec.isLt _

theorem withinExponent_of_isFinite {bits : BitVec Format.binary64.numBits}
    (finite : (unpack .binary64 bits).isFinite = true) :
    WithinExponent 971 (unpack .binary64 bits) := by
  have unsaturated : unpackExponent bits ≠ -1#_ := by
    intro saturated
    simp only [unpack, saturated, if_true] at finite
    split at finite <;> cases finite
  have different : (unpackExponent bits).toNat ≠ 2047 := fun equal =>
    unsaturated (BitVec.eq_of_toNat_eq (equal.trans toNat_saturated.symm))
  have size := (unpackExponent bits).isLt
  have range : 2 ^ Format.binary64.exponentBits = 2048 := by decide
  exact withinExponent_unpack (by decide) unsaturated (by omega)

/-- A field that is not saturated stands for its own number. -/
theorem exponentField {field : Nat} (small : field < 2047) :
    (BitVec.ofNat Format.binary64.exponentBits field).toNat = field ∧
      BitVec.ofNat Format.binary64.exponentBits field ≠ -1#_ := by
  have value : (BitVec.ofNat Format.binary64.exponentBits field).toNat = field := by
    rw [BitVec.toNat_ofNat, Nat.mod_eq_of_lt (by simp; omega)]
  refine ⟨value, fun saturated => ?_⟩
  rw [saturated, toNat_saturated] at value
  omega

/-- Packing keeps a number that does not overflow within its bound. -/
theorem WithinExponent.unpack_pack {number : UnpackedFloat} {bound : Int}
    (within : WithinExponent bound number) (low : -1074 ≤ bound)
    (high : bound ≤ 971) :
    WithinExponent bound (unpack .binary64 (pack .binary64 number)) := by
  have bias := bias_eq
  obtain ⟨least, unsaturated⟩ := toNat_least
  fun_cases pack with
  | case1 => cases within
  | case2 => cases within
  | case3 =>
      apply withinExponent_unpack low
      · rw [packedZero, unpackExponent_packComponents]
        exact unsaturated
      · rw [packedZero, unpackExponent_packComponents]
        change ((0#_ : BitVec Format.binary64.exponentBits).toNat : Int) ≤ _
        omega
  | case4 sign mantissa exponent positive field overflow =>
      simp only [WithinExponent] at within
      have most : 2 ^ Format.binary64.exponentBits = 2048 := by decide
      omega
  | case5 sign mantissa exponent positive bits field noOverflow normal =>
      simp only [WithinExponent] at within
      have field_lt : field < 2047 := by omega
      obtain ⟨value, unsaturated⟩ := exponentField field_lt
      apply withinExponent_unpack low
      · rw [unpackExponent_packComponents]
        exact unsaturated
      · rw [unpackExponent_packComponents, value]
        omega
  | case6 sign mantissa exponent =>
      apply withinExponent_unpack low
      · rw [unpackExponent_packComponents]
        exact unsaturated
      · rw [unpackExponent_packComponents, least]
        omega

/-- What does not overflow is infinite. -/
theorem isFinite_or_isInf_unpack_pack {number : UnpackedFloat}
    (finite : number.isFinite = true) :
    let packed := unpack .binary64 (pack .binary64 number)
    packed.isFinite = true ∨ packed.isInf = true := by
  cases number with
  | notANumber | infinity sign => cases finite
  | zero sign =>
      have within : WithinExponent 0 (.zero sign) := trivial
      exact .inl (within.unpack_pack (by decide) (by decide)).isFinite
  | finite sign mantissa exponent positive =>
      by_cases large : 971 < exponent
      · right
        have overflows : pack .binary64 (.finite sign mantissa exponent positive) =
            packedInfinity .binary64 sign := by
          have bias := bias_eq
          have most : 2 ^ Format.binary64.exponentBits = 2048 := by decide
          rw [pack]
          exact if_pos (by omega)
        rw [overflows]
        simp only [unpack, packedInfinity, unpackExponent_packComponents,
          unpackMantissa_packComponents, if_true]
        rfl
      · have within : WithinExponent (max exponent (-1074))
            (.finite sign mantissa exponent positive) := by
          simp only [WithinExponent]
          omega
        exact .inl (within.unpack_pack (by omega) (by omega)).isFinite

/-! ## Rounding -/

theorem mantissa_shiftRight (extended : ExtendedMantissa) (places : Nat) :
    (extended >>> places).mantissa = extended.mantissa / 2 ^ places := by
  change (places.repeat ExtendedMantissa.shiftRightOne extended).mantissa = _
  induction places with
  | zero => simp [Nat.repeat]
  | succ places induction =>
      rw [Nat.repeat, ExtendedMantissa.shiftRightOne]
      simp only [induction, Nat.div_div_eq_div_mul, Nat.pow_succ]

theorem mantissa_ofMantissaAndAccuracy (mantissa : Nat) (accuracy : Accuracy) :
    (ExtendedMantissa.ofMantissaAndAccuracy mantissa accuracy).mantissa =
      mantissa := by
  fun_cases ExtendedMantissa.ofMantissaAndAccuracy <;> rfl

theorem roundedMantissa_le (extended : ExtendedMantissa) :
    extended.roundedMantissa ≤ extended.mantissa + 1 := by
  rw [ExtendedMantissa.roundedMantissa]
  cases extended.accuracy with
  | exact => exact Nat.le_succ _
  | inexact half =>
      cases half <;> simp only [Accuracy.roundToNearestEven] <;> omega

theorem targetExponent_eq (total : Int) :
    Format.binary64.targetExponent total = max (total - 53) (-1074) := by
  rw [Format.targetExponent,
    show (Format.binary64.mantissaBits : Int) = 53 by decide,
    show Format.binary64.minExponent = -1074 by decide]

theorem totalExponent_le {mantissa width : Nat} (exponent : Int)
    (short : mantissa < 2 ^ width) :
    totalExponent mantissa exponent ≤ max width 1 + exponent := by
  have bits : mantissa.log2 + 1 ≤ max width 1 := by
    by_cases zero : mantissa = 0
    · rw [zero, Nat.log2_zero]
      omega
    · have := (Nat.log2_lt zero).2 short
      omega
  simp only [totalExponent]
  omega

/-- A shift to the target leaves at most 53 bits.  It does not go beyond a bound
that is within reach of the number. -/
theorem shiftToTargetExponent_le {mantissa width : Nat} {exponent : Int}
    (bound : Int) (accuracy : Accuracy) (short : mantissa < 2 ^ width)
    (fits : width + exponent ≤ 53 + bound) (below : exponent ≤ bound)
    (low : -1074 ≤ bound) :
    let shifted := shiftToTargetExponent .binary64 mantissa exponent accuracy
    shifted.1.mantissa < 2 ^ 53 ∧ shifted.2 ≤ bound := by
  have total := totalExponent_le exponent short
  rw [shiftToTargetExponent, shiftToExponent]
  simp only [mantissa_shiftRight, mantissa_ofMantissaAndAccuracy,
    targetExponent_eq]
  refine ⟨Nat.div_lt_of_lt_mul ?_, by omega⟩
  rw [← Nat.pow_add]
  refine Nat.lt_of_lt_of_le (Nat.lt_log2_self (n := mantissa))
    (Nat.pow_le_pow_right (by decide) ?_)
  simp only [totalExponent]
  omega

/-- A number of at most 53 bits above its bound is moved to the bound, and the
carry of the rounding can move it by one more. -/
theorem withinExponent_roundWithAccuracy {sign : Sign} {mantissa : Nat}
    {exponent : Int} {accuracy : Accuracy} (width : Nat) (bound : Int)
    (short : mantissa < 2 ^ width) (fits : width + exponent ≤ 53 + bound)
    (below : exponent ≤ bound) (low : -1074 ≤ bound) :
    WithinExponent (bound + 1)
      (roundWithAccuracy .binary64 sign mantissa exponent accuracy) := by
  obtain ⟨mantissa_lt, exponent_le⟩ :=
    shiftToTargetExponent_le bound accuracy short fits below low
  rw [roundWithAccuracy]
  generalize shiftToTargetExponent .binary64 mantissa exponent accuracy = first
    at mantissa_lt exponent_le
  obtain ⟨extended, exponent⟩ := first
  simp only at mantissa_lt exponent_le ⊢
  have rounded_lt : extended.roundedMantissa < 2 ^ 54 := by
    have carry := roundedMantissa_le extended
    omega
  have fits : (54 : Nat) + exponent ≤ 53 + (bound + 1) := by omega
  have exponent_le := (shiftToTargetExponent_le (bound + 1) .exact rounded_lt
    fits (by omega) (by omega)).2
  split
  · trivial
  · exact exponent_le

/-! ## Operations -/

theorem withinExponent_ofNat {number : Nat} (small : number < 2 ^ 64) :
    WithinExponent 12 (UnpackedFloat.ofNat .binary64 number) := by
  rw [UnpackedFloat.ofNat, UnpackedFloat.ofInt, UnpackedFloat.normalize]
  split
  case h_1 negative =>
    rw [Int.compare_eq_lt] at negative
    omega
  case h_2 => trivial
  case h_3 =>
    have total := totalExponent_le 0 small
    rw [UnpackedFloat.round]
    simp only [Int.toNat_natCast, decreaseExponent, targetExponent_eq]
    generalize places : (0 - max (totalExponent number 0 - 53) (-1074)).toNat = shift
    apply withinExponent_roundWithAccuracy (64 + shift) 11
    · rw [Nat.shiftLeft_eq, Nat.pow_add]
      exact Nat.mul_lt_mul_of_pos_right small (Nat.two_pow_pos shift)
    all_goals omega

/-- A finite number of at least one. -/
def AtLeastOne : UnpackedFloat → Bool
  | .finite _ mantissa exponent _ => 1 ≤ totalExponent mantissa exponent
  | _ => false

theorem quotient_lt {dividend divisor shift width : Nat} (positive : 0 < divisor)
    (enough : dividend.log2 + 1 + shift ≤ width + divisor.log2) :
    (dividend <<< shift) / divisor < 2 ^ width := by
  rw [Nat.div_lt_iff_lt_mul positive, Nat.shiftLeft_eq]
  calc
    dividend * 2 ^ shift < 2 ^ (dividend.log2 + 1) * 2 ^ shift :=
      Nat.mul_lt_mul_of_pos_right Nat.lt_log2_self (Nat.two_pow_pos shift)
    _ = 2 ^ (dividend.log2 + 1 + shift) := (Nat.pow_add ..).symm
    _ ≤ 2 ^ (width + divisor.log2) := Nat.pow_le_pow_right (by decide) enough
    _ = 2 ^ width * 2 ^ divisor.log2 := Nat.pow_add ..
    _ ≤ 2 ^ width * divisor :=
      Nat.mul_le_mul_left _ (Nat.log2_self_le (Nat.ne_of_gt positive))

/-- A division by at least one leaves the exponent within its bound, up to the
carry of the rounding. -/
theorem WithinExponent.div {dividend divisor : UnpackedFloat} {bound : Int}
    (within : WithinExponent bound dividend) (low : -1074 ≤ bound)
    (short : ∀ sign mantissa exponent positive,
      dividend = .finite sign mantissa exponent positive → mantissa < 2 ^ 53)
    (atLeastOne : AtLeastOne divisor = true) :
    WithinExponent (bound + 1) (UnpackedFloat.div .binary64 dividend divisor) := by
  cases divisor with
  | notANumber | infinity sign | zero sign => cases atLeastOne
  | finite sign₂ mantissa₂ exponent₂ positive₂ =>
      cases dividend with
      | notANumber | infinity sign => cases within
      | zero sign => trivial
      | finite sign₁ mantissa₁ exponent₁ positive₁ =>
          have below : exponent₁ ≤ bound := within
          have size₁ : mantissa₁.log2 < 53 :=
            (Nat.log2_lt (Nat.ne_of_gt positive₁)).2 (short _ _ _ _ rfl)
          have size₂ : 1 ≤ totalExponent mantissa₂ exponent₂ := by
            simpa [AtLeastOne] using atLeastOne
          simp only [UnpackedFloat.div, divCore, targetExponent_eq]
          generalize reached : min (exponent₁ - exponent₂) (max
            (totalExponent mantissa₁ exponent₁ - totalExponent mantissa₂ exponent₂
              - 53) (-1074)) = target
          generalize shifted : (exponent₁ - exponent₂ - target).toNat = shift
          simp only [totalExponent] at size₂ reached
          apply withinExponent_roundWithAccuracy
            (mantissa₁.log2 + 1 + shift - mantissa₂.log2) bound
          · exact quotient_lt positive₂ (by omega)
          all_goals omega

theorem isFinite_mul {left right : UnpackedFloat}
    (leftFinite : left.isFinite = true) (rightFinite : right.isFinite = true) :
    (UnpackedFloat.mul .binary64 left right).isFinite = true := by
  cases left with
  | notANumber | infinity sign => cases leftFinite
  | zero sign =>
      cases right with
      | notANumber | infinity sign => cases rightFinite
      | zero sign | finite sign mantissa exponent positive => rfl
  | finite sign₁ mantissa₁ exponent₁ positive₁ =>
      cases right with
      | notANumber | infinity sign => cases rightFinite
      | zero sign => rfl
      | finite sign₂ mantissa₂ exponent₂ positive₂ =>
          rw [UnpackedFloat.mul, roundWithAccuracy]
          simp only
          split <;> rfl

theorem WithinExponent.neg {bound : Int} {number : UnpackedFloat}
    (within : WithinExponent bound number) : WithinExponent bound number.neg := by
  cases number <;> exact within

/-! ## Floats -/

/-- The exponent of a float is at most `bound`, and it is finite. -/
def Within (bound : Int) (number : Float) : Prop :=
  WithinExponent bound number.toModel.unpack

theorem Within.isFinite {bound : Int} {number : Float}
    (within : Within bound number) : number.isFinite = true :=
  WithinExponent.isFinite within

theorem within_toFloat (number : UInt64) : Within 12 number.toFloat :=
  (withinExponent_ofNat number.toNat_lt).unpack_pack (by decide) (by decide)

theorem Within.div {bound : Int} {dividend divisor : Float}
    (within : Within bound dividend) (low : -1074 ≤ bound) (high : bound < 971)
    (atLeastOne : AtLeastOne divisor.toModel.unpack = true) :
    Within (bound + 1) (dividend / divisor) := by
  have quotient := WithinExponent.div within low
    (fun _ _ _ _ unpacked => mantissa_lt_of_unpack unpacked) atLeastOne
  exact quotient.unpack_pack (by omega) (by omega)

theorem isFinite_of_atLeastOne {number : Float}
    (atLeastOne : AtLeastOne number.toModel.unpack = true) :
    number.isFinite = true := by
  change number.toModel.unpack.isFinite = true
  generalize number.toModel.unpack = unpacked at atLeastOne
  cases unpacked <;> first | rfl | cases atLeastOne

theorem isFinite_of_mul {left right : Float} (leftFinite : left.isFinite = true)
    (rightFinite : right.isFinite = true) (noOverflow : ¬ (left * right).isInf) :
    (left * right).isFinite = true := by
  rcases isFinite_or_isInf_unpack_pack (isFinite_mul leftFinite rightFinite) with
    finite | infinite
  · exact finite
  · exact absurd infinite noOverflow

theorem within_of_isFinite {number : Float} (finite : number.isFinite = true) :
    Within 971 number :=
  withinExponent_of_isFinite finite

theorem isFinite_neg {number : Float} (finite : number.isFinite = true) :
    (-number).isFinite = true :=
  ((within_of_isFinite finite).neg.unpack_pack (by decide) (by decide)).isFinite

end DiagramEnergy.Binary64
