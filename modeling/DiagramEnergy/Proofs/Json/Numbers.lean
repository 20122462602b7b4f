import DiagramEnergy.Json.Decoder
import DiagramEnergy.Proofs.Json.Literals
import DiagramEnergy.Proofs.Numbers.PowersOfTen

/-!
# Numbers in JSON

What is written for integers and floats is well-formed.  Integers of 64 bits
are read exactly, and a float that is read is finite, however it is written.
-/

namespace DiagramEnergy

/-! ## Digits of naturals -/

theorem isDigits_toDigits (number : Nat) : IsDigits (Nat.toDigits 10 number) :=
  ⟨Nat.toDigits_ne_nil, fun _ member =>
    Nat.isDigit_of_mem_toDigits (by decide) (by decide) member⟩

theorem head?_toDigits_ne {number : Nat} (positive : 0 < number) :
    (Nat.toDigits 10 number).head? ≠ some '0' := by
  induction number using Nat.base_induction 10 (by decide) with
  | single digit small =>
      rw [Nat.toDigits_of_lt_base small]
      simpa using Nat.ne_of_gt positive
  | digit number digit small filled induction =>
      rw [← Nat.toDigits_append_toDigits (by decide) filled small,
        List.head?_append]
      cases first : (Nat.toDigits 10 number).head? with
      | none => exact absurd (List.head?_eq_none_iff.1 first) Nat.toDigits_ne_nil
      | some leading =>
          rw [first] at induction
          exact induction filled

theorem length_toDigits_of_head {number : Nat}
    (zero : (Nat.toDigits 10 number).head? = some '0') :
    (Nat.toDigits 10 number).length = 1 := by
  rcases Nat.eq_zero_or_pos number with rfl | positive
  · rfl
  · exact absurd zero (head?_toDigits_ne positive)

namespace JsonNumber

open Binary64

/-! ## Integers -/

theorem absorb_eq {digits : List Char} {significand : Nat}
    (fits : Nat.ofDigitChars 10 digits significand < Nat.pow 2 64) :
    absorb significand digits = (Nat.ofDigitChars 10 digits significand, []) := by
  induction digits generalizing significand with
  | nil => rfl
  | cons digit digits induction =>
      have step : Nat.ofDigitChars 10 (digit :: digits) significand =
          Nat.ofDigitChars 10 digits (significand * 10 + digitValue digit) := by
        rw [Nat.ofDigitChars_cons, Nat.mul_comm]
        rfl
      rw [step] at fits ⊢
      have grows : significand * 10 + digitValue digit ≤
          Nat.ofDigitChars 10 digits (significand * 10 + digitValue digit) := by
        rw [Nat.ofDigitChars_eq_ofDigitChars_zero]
        exact Nat.le_add_right_of_le
          (Nat.le_mul_of_pos_left _ (Nat.pow_pos (by decide)))
      rw [absorb, if_pos (Nat.lt_of_le_of_lt grows fits), induction fits]

theorem absorb_toDigits {number : Nat} (fits : number < Nat.pow 2 64) :
    absorb 0 (Nat.toDigits 10 number) = (number, []) := by
  rw [absorb_eq (by rw [Nat.ofDigitChars_ten_toDigits]; exact fits),
    Nat.ofDigitChars_ten_toDigits]

theorem meaning?_natural {number : Nat} (fits : number < Nat.pow 2 64) :
    (natural number).meaning? = some (.natural number) := by
  simp only [meaning?, natural, absorb_toDigits fits, Bool.not_false, if_true]

theorem wellFormed_natural (number : Nat) : (natural number).WellFormed where
  whole := isDigits_toDigits number
  noLeadingZero := length_toDigits_of_head
  fraction := by rintro digits ⟨⟩
  exponent := by rintro exponent ⟨⟩

theorem wellFormed_integer (number : Int) : (integer number).WellFormed where
  whole := isDigits_toDigits number.natAbs
  noLeadingZero := length_toDigits_of_head
  fraction := by rintro digits ⟨⟩
  exponent := by rintro exponent ⟨⟩

theorem meaning?_integer_of_neg {number : Int} (negative : number < 0)
    (least : -Nat.pow 2 63 ≤ number) :
    (integer number).meaning? = some (.negative number.natAbs) := by
  have fits : number.natAbs < Nat.pow 2 64 := by
    simp only [Nat.pow_eq] at least ⊢
    omega
  have inRange : ¬(number.natAbs = 0 ∨ Nat.pow 2 63 < number.natAbs) := by
    simp only [Nat.pow_eq] at least ⊢
    omega
  simp only [meaning?, integer, absorb_toDigits fits, negative, decide_true,
    Bool.not_true, Bool.false_eq_true, if_false, if_neg inRange]

/-! ## Floats -/

/-- Whatever a number is scaled to is finite: a product is checked, and a division
by a power of ten makes the number smaller. -/
theorem isFinite_scale {significand : Nat} {power : Int} {number : Float}
    (scaled : scale significand power = some number) : number.isFinite = true := by
  have start := within_toFloat (.ofNat significand)
  have zero : (0 : Float).isFinite = true := by decide +kernel
  simp only [scale] at scaled
  split at scaled
  case isTrue =>
    cases scaled
    exact zero
  split at scaled
  case isTrue => cases scaled
  split at scaled
  case isTrue =>
    split at scaled
    case isTrue => cases scaled
    case isFalse noOverflow =>
      cases scaled
      exact isFinite_of_mul start.isFinite
        (isFinite_of_atLeastOne (atLeastOne_tenTo (by omega))) noOverflow
  split at scaled
  case isTrue =>
    cases scaled
    exact (start.div (by decide) (by decide) (atLeastOne_tenTo (by omega))).isFinite
  split at scaled
  case isTrue =>
    cases scaled
    have first := start.div (by decide) (by decide)
      (atLeastOne_tenTo (Nat.le_refl 308))
    exact (first.div (by decide) (by decide) (atLeastOne_tenTo (by omega))).isFinite
  case isFalse =>
    cases scaled
    exact zero

theorem isFinite_magnitude? {literal : JsonNumber} {number : Float}
    (read : literal.magnitude? = some number) : number.isFinite = true := by
  have applied : ∀ {significand power exponent},
      applyExponent significand power exponent = some number →
        number.isFinite = true := by
    intro significand power exponent applied
    cases exponent with
    | none => exact isFinite_scale applied
    | some exponent =>
        simp only [applyExponent] at applied
        split at applied
        · split at applied
          · cases applied
          · cases applied
            decide +kernel
        · exact isFinite_scale applied
  rw [magnitude?] at read
  simp only at read
  split at read <;> exact applied read

theorem isFinite_meaning? {literal : JsonNumber} {number : Float}
    (means : literal.meaning? = some (.float number)) :
    number.isFinite = true := by
  have asFloat : (literal.magnitude?.map fun magnitude => Meaning.float
      (if literal.negative then -magnitude else magnitude)) =
        some (.float number) → number.isFinite = true := by
    intro means
    obtain ⟨magnitude, read, same⟩ := Option.map_eq_some_iff.1 means
    have finite := isFinite_magnitude? read
    cases same
    split
    · exact isFinite_neg finite
    · exact finite
  rw [meaning?] at means
  split at means
  · split at means
    · cases means
    · split at means
      · exact asFloat means
      · cases means
  · exact asFloat means

end JsonNumber

namespace Json

theorem toNat?_natural {number : Nat} (fits : number < Nat.pow 2 64) :
    toNat? (.number (.natural number)) = some number := by
  simp only [toNat?, JsonNumber.meaning?_natural fits]

theorem toInt64?_integer (number : Int64) :
    toInt64? (.number (.integer number.toInt)) = some number := by
  have least : -Nat.pow 2 63 ≤ number.toInt := number.le_toInt
  have most : number.toInt < Nat.pow 2 63 := number.toInt_lt
  by_cases negative : number.toInt < 0
  · have magnitude : -(number.toInt.natAbs : Int) = number.toInt := by omega
    simp only [toInt64?, JsonNumber.meaning?_integer_of_neg negative least,
      magnitude, Int64.ofInt_toInt]
  · have natural : JsonNumber.integer number.toInt =
        .natural number.toInt.natAbs := by
      simp only [JsonNumber.integer, JsonNumber.natural, negative, decide_false]
    have small : number.toInt.natAbs < Nat.pow 2 63 := by omega
    have fits : number.toInt.natAbs < Nat.pow 2 64 :=
      Nat.lt_trans small (by decide)
    have same : Int64.ofNat number.toInt.natAbs = number := by
      rw [← Int64.ofInt_eq_ofNat, Int.natAbs_of_nonneg (by omega),
        Int64.ofInt_toInt]
    simp only [toInt64?, natural, JsonNumber.meaning?_natural fits, if_pos small,
      same]

/-- A float that is read is finite, whatever number is written. -/
theorem isFinite_of_toFloat? {json : Json} {number : Float}
    (read : json.toFloat? = some number) : number.isFinite = true := by
  cases json with
  | number literal =>
      obtain ⟨meaning, means, rfl⟩ := Option.map_eq_some_iff.1 read
      cases meaning with
      | natural value => exact (Binary64.within_toFloat _).isFinite
      | negative magnitude => exact Binary64.isFinite_neg (Binary64.within_toFloat _).isFinite
      | float value => exact JsonNumber.isFinite_meaning? means
  | _ => cases read

end Json

end DiagramEnergy
