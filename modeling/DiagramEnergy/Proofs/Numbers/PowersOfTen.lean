import DiagramEnergy.Json.Number
import DiagramEnergy.Proofs.Numbers.Rounding

/-!
# Powers of ten as floats

A number that is neither too small nor too large for all of its 53 bits keeps
its size when it is rounded and packed.  So the powers of ten that are floats
are at least one, as divisors have to be.
-/

namespace DiagramEnergy.Binary64

open Float.Model (totalExponent Format UnpackedFloat)
open Float.Model.UnpackedFloat

/-- A finite number with all of its 53 bits and an exponent from `low` to `high`. -/
def NormalWithin (low high : Int) : UnpackedFloat → Prop
  | .finite _ mantissa exponent _ =>
    (2 ^ 52 ≤ mantissa ∧ mantissa < 2 ^ 53) ∧ low ≤ exponent ∧ exponent ≤ high
  | _ => False

/-! ## Packing -/

theorem normalWithin_unpack {bits : BitVec Format.binary64.numBits} {low high : Int}
    (unsaturated : unpackExponent bits ≠ -1#_)
    (positive : 0 < (unpackExponent bits).toNat)
    (below : low + 1075 ≤ (unpackExponent bits).toNat)
    (above : ((unpackExponent bits).toNat : Int) ≤ high + 1075) :
    NormalWithin low high (unpack .binary64 bits) := by
  have bias := bias_eq
  fun_cases unpack with
  | case1 | case2 => contradiction
  | case3 _ _ _ _ _ least | case4 _ _ _ _ _ _ least =>
      have least : (unpackExponent bits).toNat = 0 := congrArg BitVec.toNat least
      omega
  | case5 mantissas =>
      have implicit : (1#1 ++ mantissas).toNat = 2 ^ 52 + mantissas.toNat := by
        rw [BitVec.toNat_append, ← Nat.shiftLeft_add_eq_or_of_lt mantissas.isLt]
        rfl
      refine ⟨⟨?_, BitVec.isLt _⟩, ?_, ?_⟩
      · omega
      · change low ≤ ((unpackExponent bits).toNat : Int) - _
        omega
      · change ((unpackExponent bits).toNat : Int) - _ ≤ high
        omega

theorem NormalWithin.unpack_pack {number : UnpackedFloat} {low high : Int}
    (within : NormalWithin low high number) (least : -1074 ≤ low)
    (most : high ≤ 971) :
    NormalWithin low high (unpack .binary64 (pack .binary64 number)) := by
  have bias := bias_eq
  fun_cases pack with
  | case1 | case2 | case3 => cases within
  | case4 sign mantissa exponent positive field overflow =>
      obtain ⟨-, -, above⟩ := within
      have most : 2 ^ Format.binary64.exponentBits = 2048 := by decide
      omega
  | case5 sign mantissa exponent positive bits field =>
      obtain ⟨-, below, above⟩ := within
      have field_lt : field < 2047 := by omega
      obtain ⟨value, unsaturated⟩ := exponentField field_lt
      apply normalWithin_unpack <;> rw [unpackExponent_packComponents]
      · exact unsaturated
      all_goals
        rw [value]
        omega
  | case6 sign mantissa exponent positive bits field noOverflow subnormal =>
      obtain ⟨⟨long, short⟩, -⟩ := within
      have filled : mantissa ≠ 0 := by omega
      have low : 52 ≤ mantissa.log2 := (Nat.le_log2 filled).2 long
      have high : mantissa.log2 < 53 := (Nat.log2_lt filled).2 short
      have width : Format.binary64.mantissaBits = 53 := by decide
      omega

/-! ## Rounding -/

theorem le_roundedMantissa (extended : ExtendedMantissa) :
    extended.mantissa ≤ extended.roundedMantissa := by
  rw [ExtendedMantissa.roundedMantissa]
  cases extended.accuracy with
  | exact => exact Nat.le_refl _
  | inexact half =>
      cases half <;> simp only [Accuracy.roundToNearestEven] <;> omega

/-- A shift to the target keeps the leading bits of a long mantissa. -/
theorem shiftToTargetExponent_normal {mantissa : Nat} {exponent : Int}
    (accuracy : Accuracy) (long : 2 ^ 52 ≤ mantissa)
    (normal : -1021 ≤ totalExponent mantissa exponent) :
    let shifted := shiftToTargetExponent .binary64 mantissa exponent accuracy
    (2 ^ 52 ≤ shifted.1.mantissa ∧ shifted.1.mantissa < 2 ^ 53) ∧
      shifted.2 = totalExponent mantissa exponent - 53 := by
  have positive : mantissa ≠ 0 := by omega
  have bits : 52 ≤ mantissa.log2 := (Nat.le_log2 positive).2 long
  have places : (max (totalExponent mantissa exponent - 53) (-1074) - exponent).toNat =
      mantissa.log2 - 52 := by
    simp only [totalExponent] at normal ⊢
    omega
  rw [shiftToTargetExponent, shiftToExponent]
  simp only [mantissa_shiftRight, mantissa_ofMantissaAndAccuracy,
    targetExponent_eq, places]
  refine ⟨⟨?_, ?_⟩, ?_⟩
  · rw [Nat.le_div_iff_mul_le (Nat.two_pow_pos _), ← Nat.pow_add,
      Nat.add_sub_cancel' bits]
    exact Nat.log2_self_le positive
  · rw [Nat.div_lt_iff_lt_mul (Nat.two_pow_pos _), ← Nat.pow_add]
    exact Nat.lt_of_lt_of_le (Nat.lt_log2_self (n := mantissa))
      (Nat.pow_le_pow_right (by decide) (by omega))
  · simp only [totalExponent]
    omega

/-- Rounding keeps the size of a normal number, up to its carry. -/
theorem normalWithin_roundWithAccuracy {sign : Sign} {mantissa : Nat} {exponent : Int}
    {accuracy : Accuracy} (long : 2 ^ 52 ≤ mantissa)
    (normal : -1021 ≤ totalExponent mantissa exponent) :
    NormalWithin (totalExponent mantissa exponent - 53)
      (totalExponent mantissa exponent - 52)
      (roundWithAccuracy .binary64 sign mantissa exponent accuracy) := by
  obtain ⟨⟨low, high⟩, reached⟩ := shiftToTargetExponent_normal accuracy long normal
  rw [roundWithAccuracy]
  generalize shiftToTargetExponent .binary64 mantissa exponent accuracy = first
    at low high reached
  obtain ⟨extended, middle⟩ := first
  simp only at low high reached ⊢
  have rounded_le := roundedMantissa_le extended
  have long : 2 ^ 52 ≤ extended.roundedMantissa :=
    Nat.le_trans low (le_roundedMantissa extended)
  have filled : extended.roundedMantissa ≠ 0 := by omega
  have fewest : 52 ≤ extended.roundedMantissa.log2 := (Nat.le_log2 filled).2 long
  have carried : extended.roundedMantissa.log2 < 54 :=
    (Nat.log2_lt filled).2 (by omega)
  have size : totalExponent extended.roundedMantissa middle =
      extended.roundedMantissa.log2 + 1 + middle := rfl
  obtain ⟨bits, last⟩ := shiftToTargetExponent_normal .exact long
    (show -1021 ≤ totalExponent extended.roundedMantissa middle by omega)
  rw [dif_neg (by omega)]
  exact ⟨bits, by omega, by omega⟩

/-! ## Powers of ten -/

theorem NormalWithin.atLeastOne {number : UnpackedFloat} {low high : Int}
    (within : NormalWithin low high number) (least : -52 ≤ low) :
    AtLeastOne number = true := by
  cases number with
  | notANumber | infinity sign | zero sign => cases within
  | finite sign mantissa exponent positive =>
      obtain ⟨⟨long, -⟩, below, -⟩ := within
      have bits : 52 ≤ mantissa.log2 :=
        (Nat.le_log2 (Nat.ne_of_gt positive)).2 long
      refine decide_eq_true ?_
      change 1 ≤ (mantissa.log2 : Int) + 1 + exponent
      omega

/-- Small powers are floats themselves, and the rounding of larger ones cannot
carry them into overflow. -/
theorem atLeastOne_ofScientific {power : Nat} (large : 22 < power)
    (small : power < 308) :
    AtLeastOne (Float.ofScientific 1 false power).toModel.unpack = true := by
  let mantissa := 1 <<< 53 * 10 ^ power
  have range : (2 : Int) ^ Format.binary64.exponentBits = 2048 := by decide
  have product : UnpackedFloat.ofScientific .binary64 1 power =
      roundWithAccuracy .binary64 .positive mantissa (-53) .exact := by
    rw [UnpackedFloat.ofScientific, dif_neg (by decide), if_neg (by omega),
      if_neg (by omega), if_pos (by omega)]
    rfl
  have low : 2 ^ 53 ≤ mantissa :=
    Nat.le_mul_of_pos_right _ (Nat.pow_pos (by decide))
  have positive : mantissa ≠ 0 := by omega
  have least : 53 ≤ mantissa.log2 := (Nat.le_log2 positive).2 low
  have most : mantissa.log2 < 1076 := by
    rw [Nat.log2_lt positive]
    calc
      mantissa ≤ 1 <<< 53 * 10 ^ 307 := Nat.mul_le_mul_left _
        (Nat.pow_le_pow_right (by decide) (by omega))
      _ < 2 ^ 1076 := by decide +kernel
  have total : totalExponent mantissa (-53) = mantissa.log2 + 1 + (-53) := rfl
  have rounded : NormalWithin (totalExponent mantissa (-53) - 53)
      (totalExponent mantissa (-53) - 52)
      (roundWithAccuracy .binary64 .positive mantissa (-53) .exact) :=
    normalWithin_roundWithAccuracy (by omega) (by omega)
  rw [← product] at rounded
  rw [Float.ofScientific, dif_neg (by omega)]
  exact (rounded.unpack_pack (by omega) (by omega)).atLeastOne (by omega)

theorem atLeastOne_tenTo {power : Nat} (small : power ≤ 308) :
    AtLeastOne (JsonNumber.tenTo power).toModel.unpack = true := by
  have few : ∀ power < 23,
      AtLeastOne (JsonNumber.tenTo power).toModel.unpack = true := by
    decide +kernel
  have last : AtLeastOne (JsonNumber.tenTo 308).toModel.unpack = true := by
    decide +kernel
  rcases Nat.lt_or_ge 22 power with large | least
  · rcases Nat.eq_or_lt_of_le small with rfl | small
    · exact last
    · exact atLeastOne_ofScientific large small
  · exact few power (by omega)

end DiagramEnergy.Binary64
