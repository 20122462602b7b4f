import DiagramEnergy.Arithmetic
import Mathlib.Algebra.Order.Ring.Int
import Mathlib.Tactic.Ring

/-!
# Integer operations against exact arithmetic

Every operation on 64-bit integers is the exact operation, followed by the test
whether the result fits.  The one exception are powers with exponents past 32
bits: they are refused even where the exact power fits, which it does for the
bases 0, 1 and -1.
-/

namespace DiagramEnergy

/-- The exact result of an operation.  Division truncates toward zero; division
by zero and powers with negative exponents have no result. -/
def BinaryOp.exactResult? (op : BinaryOp) (left right : Int) : Option Int :=
  match op with
  | .add => some (left + right)
  | .subtract => some (left - right)
  | .multiply => some (left * right)
  | .divide => if right = 0 then none else some (left.tdiv right)
  | .power => if right < 0 then none else some (left ^ right.toNat)

/-- An operation on integers as errors show it. -/
def BinaryOp.shown (op : BinaryOp) (left right : Int) : String :=
  toString left ++ " " ++ op.symbol ++ " " ++ toString right

namespace Integer

theorem fits_iff {exact : Int} :
    fits exact = true ↔ -2 ^ 63 ≤ exact ∧ exact < 2 ^ 63 := by
  have least : Int64.minValue.toInt = -2 ^ 63 := by decide
  have greatest : Int64.maxValue.toInt = 2 ^ 63 - 1 := by decide
  simp only [fits, decide_eq_true_eq, least, greatest]
  omega

@[simp] theorem fits_toInt (number : Int64) : fits number.toInt = true :=
  fits_iff.2 ⟨number.le_toInt, number.toInt_lt⟩

theorem toInt_ofInt_of_fits {exact : Int} (fitting : fits exact = true) :
    (Int64.ofInt exact).toInt = exact :=
  Int64.toInt_ofInt_of_le (fits_iff.1 fitting).1 (fits_iff.1 fitting).2

theorem ofExact_eq_ok_iff {context : String} {exact : Int} {number : Int64} :
    ofExact context exact = .ok number ↔
      fits exact = true ∧ exact = number.toInt := by
  unfold ofExact
  split
  case isTrue fitting =>
    constructor
    · intro same
      cases same
      exact ⟨fitting, (toInt_ofInt_of_fits fitting).symm⟩
    · rintro ⟨-, rfl⟩
      rw [Int64.ofInt_toInt]
  case isFalse outside => simp [outside]

theorem ofExact_eq_error_iff {context : String} {exact : Int} {error : Error} :
    ofExact context exact = .error error ↔
      fits exact = false ∧ error = .integerOverflow context := by
  unfold ofExact
  cases fits exact <;> simp [eq_comm]

/-! ## Powers -/

theorem power_small {base : Int} (small : base = 0 ∨ base = 1 ∨ base = -1)
    (exponent : Nat) :
    (if exponent = 0 then 1
      else if exponent % 2 = 0 then base * base else base) =
      base ^ exponent := by
  split
  case isTrue none => rw [none, pow_zero]
  case isFalse some =>
    rcases small with rfl | rfl | rfl
    · simp [some]
    · simp
    · rcases Nat.even_or_odd exponent with even | odd
      · rw [if_pos (Nat.even_iff.1 even), even.neg_one_pow]
        rfl
      · rw [if_neg (by have := Nat.odd_iff.1 odd; omega), odd.neg_one_pow]

/-- Other bases leave the range with the exponent 64 at the latest. -/
theorem not_fits_pow {base : Int} {exponent : Nat} (large : 2 ≤ base.natAbs)
    (steep : 64 ≤ exponent) : fits (base ^ exponent) = false := by
  have grown : 2 ^ 64 ≤ (base ^ exponent).natAbs := by
    rw [Int.natAbs_pow]
    calc 2 ^ 64 ≤ 2 ^ exponent := Nat.pow_le_pow_right (by decide) steep
      _ ≤ base.natAbs ^ exponent := Nat.pow_le_pow_left large exponent
  rw [Bool.eq_false_iff, Ne, fits_iff]
  omega

theorem power_eq (context : String) (base : Int) (exponent : Nat) :
    power context base exponent =
      if exponentBound ≤ exponent then .error (.integerOverflow context)
      else ofExact context (base ^ exponent) := by
  unfold power
  split
  case isTrue => rfl
  case isFalse =>
    by_cases small : base = 0 ∨ base = 1 ∨ base = -1
    · rw [if_pos small, power_small small]
    · rw [if_neg small]
      split
      case isTrue steep =>
        rw [ofExact, not_fits_pow (by omega) steep]
        rfl
      case isFalse => rfl

/-! ## All operations -/

/-- Whether an operation is a power that is refused without being computed. -/
def isSteep (op : BinaryOp) (right : Int) : Bool :=
  op == .power && decide (exponentBound ≤ right)

/-- Why an operation without an exact result is refused. -/
def undefinedError (op : BinaryOp) (left right : Int) : Error :=
  match op with
  | .power => .typeMismatch (op.shown left right) .negativeExponent
  | _ => .divisionByZero (op.shown left right)

/-- An operation is the exact one, cut off where its result does not fit and
where a power is steep. -/
theorem operate_eq (op : BinaryOp) (left right : Int64) :
    operate op left right =
      match op.exactResult? left.toInt right.toInt with
      | none => .error (undefinedError op left.toInt right.toInt)
      | some exact =>
        if isSteep op right.toInt then
          .error (.integerOverflow (op.shown left.toInt right.toInt))
        else ofExact (op.shown left.toInt right.toInt) exact := by
  cases op with
  | add => rfl
  | subtract => rfl
  | multiply => rfl
  | divide =>
      simp only [operate, BinaryOp.exactResult?]
      split <;> rfl
  | power =>
      simp only [operate, BinaryOp.exactResult?]
      by_cases negative : right.toInt < 0
      · rw [if_pos negative, if_pos negative]
        rfl
      · have size : (right.toInt.toNat : Int) = right.toInt :=
          Int.toNat_of_nonneg (by omega)
        rw [if_neg negative, if_neg negative, power_eq, size]
        simp only [isSteep, BEq.rfl, Bool.true_and, decide_eq_true_eq]
        rfl

end Integer

end DiagramEnergy
