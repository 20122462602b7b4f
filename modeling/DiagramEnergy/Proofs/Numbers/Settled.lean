import DiagramEnergy.Scalar
import Mathlib

/-!
# Settled pairs of floats

The larger and the smaller of two numbers are taken in two ways.  Numbers in
general compare their plain values and take the second operand when the
comparison fails.  Floats prefer a number to a value that is none, and take the
second operand when both are equal.  The two ways agree on settled pairs only.
-/

namespace DiagramEnergy

namespace Scalar

/-- The second operand is a number unless neither is one, and equal operands are
the same, which zeros of different signs are not. -/
def Settled (left right : Float) : Prop :=
  (right.isNaN = true → left.isNaN = true) ∧
    ((left == right) = true → left = right)

instance (left right : Float) : Decidable (Settled left right) :=
  inferInstanceAs (Decidable (_ ∧ _))

/-! ## Comparisons -/

/-- How two floats compare, if both are numbers. -/
def comparison (left right : Float) : Option Ordering :=
  left.toModel.compare right.toModel

theorem lt_iff_comparison {left right : Float} :
    left < right ↔ comparison left right = some .lt := by
  change decide (left.toModel < right.toModel) = true ↔ _
  rw [decide_eq_true_eq]
  exact beq_iff_eq

theorem beq_iff_comparison {left right : Float} :
    (left == right) = true ↔ comparison left right = some .eq :=
  beq_iff_eq (a := comparison left right)

theorem le_iff_comparison {left right : Float} :
    left ≤ right ↔ (comparison left right).any (·.isLE) = true := by
  change decide (left.toModel ≤ right.toModel) = true ↔ _
  rw [decide_eq_true_eq]
  rfl

theorem le_iff_lt_or_beq {left right : Float} :
    left ≤ right ↔ left < right ∨ (left == right) = true := by
  rw [le_iff_comparison, lt_iff_comparison, beq_iff_comparison]
  cases comparison left right with
  | none => decide
  | some ordering => cases ordering <;> decide

theorem not_beq_of_lt {left right : Float} (less : left < right) :
    ¬ (left == right) = true := by
  rw [beq_iff_comparison, lt_iff_comparison.1 less]
  decide

theorem isNaN_eq_false_of_comparison {left right : Float}
    {ordering : Ordering} (compared : comparison left right = some ordering) :
    left.isNaN = false ∧ right.isNaN = false := by
  change left.toModel.unpack.compare right.toModel.unpack = _ at compared
  change left.toModel.unpack.isNaN = false ∧ right.toModel.unpack.isNaN = false
  constructor
  · cases unpacked : left.toModel.unpack with
    | notANumber =>
        rw [unpacked] at compared
        cases compared
    | _ => rfl
  · cases unpacked : right.toModel.unpack with
    | notANumber =>
        rw [unpacked] at compared
        cases other : left.toModel.unpack <;> rw [other] at compared <;>
          cases compared
    | _ => rfl

theorem isNaN_eq_false_of_beq {left right : Float}
    (equal : (left == right) = true) : right.isNaN = false :=
  (isNaN_eq_false_of_comparison (beq_iff_comparison.1 equal)).2

theorem eq_of_isNaN {left right : Float} (first : left.isNaN = true)
    (second : right.isNaN = true) : left = right := by
  rw [Float.isNaN_eq_decide_eq_nan, decide_eq_true_eq] at first second
  rw [first, second]

/-! ## Taking an operand -/

/-- Taking the first operand when both are equal, and taking the second one then
and whenever only that is a number, is the same for settled operands only. -/
theorem take_eq_iff_settled {left right : Float} {reaches passes : Prop}
    [Decidable reaches] [Decidable passes]
    (reachesIff : reaches ↔ passes ∨ (left == right) = true)
    (passing : passes → right.isNaN = false ∧ ¬ (left == right) = true) :
    (if reaches then left else right) =
        (if right.isNaN then left else if passes then left else right) ↔
      Settled left right := by
  cases absent : right.isNaN with
  | true =>
      have different : ¬ (left == right) = true := by
        intro equal
        rw [isNaN_eq_false_of_beq equal] at absent
        cases absent
      have behind : ¬ reaches := by
        intro reached
        rcases reachesIff.1 reached with passed | equal
        · rw [(passing passed).1] at absent
          cases absent
        · exact different equal
      rw [if_neg behind, if_pos rfl]
      constructor
      · rintro rfl
        exact ⟨fun _ => absent, fun equal => absurd equal different⟩
      · intro settled
        exact (eq_of_isNaN (settled.1 absent) absent).symm
  | false =>
      have present : ¬ right.isNaN = true := by
        rw [absent]
        exact Bool.false_ne_true
      rw [if_neg Bool.false_ne_true]
      by_cases passed : passes
      · have different := (passing passed).2
        rw [if_pos (reachesIff.2 (.inl passed)), if_pos passed]
        exact iff_of_true rfl
          ⟨fun missing => absurd missing present,
            fun equal => absurd equal different⟩
      · rw [if_neg passed]
        by_cases equal : (left == right) = true
        · rw [if_pos (reachesIff.2 (.inr equal))]
          constructor
          · rintro rfl
            exact ⟨id, fun _ => rfl⟩
          · intro settled
            exact settled.2 equal
        · have behind : ¬ reaches := by
            intro reached
            exact (reachesIff.1 reached).elim passed equal
          rw [if_neg behind]
          exact iff_of_true rfl
            ⟨fun missing => absurd missing present,
              fun same => absurd same equal⟩

theorem take_max_iff_settled {left right : Float} :
    (if left ≥ right then left else right) = maxFloat left right ↔
      Settled left right := by
  apply take_eq_iff_settled
  · rw [BEq.comm]
    exact le_iff_lt_or_beq
  · intro greater
    rw [BEq.comm]
    exact ⟨(isNaN_eq_false_of_comparison (lt_iff_comparison.1 greater)).1,
      not_beq_of_lt greater⟩

theorem take_min_iff_settled {left right : Float} :
    (if left ≤ right then left else right) = minFloat left right ↔
      Settled left right := by
  apply take_eq_iff_settled
  · exact le_iff_lt_or_beq
  · intro less
    exact ⟨(isNaN_eq_false_of_comparison (lt_iff_comparison.1 less)).2,
      not_beq_of_lt less⟩

/-- Zero is settled except against the other zero. -/
theorem settled_zero {number : Float} (ordinary : number ≠ -0) :
    Settled number 0 := by
  constructor
  · intro absent
    exact absurd absent (by decide +kernel)
  · intro equal
    rcases (Float.beq_iff_ne_nan_and_eq.1 equal).2.2 with
      same | ⟨rfl, zero⟩ | ⟨negative, -⟩
    · exact same
    · exact absurd zero (by decide +kernel)
    · exact absurd negative ordinary

end Scalar

end DiagramEnergy
