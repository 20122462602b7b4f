import DiagramEnergy.Proofs.Problem.DefaultCalls
import DiagramEnergy.Proofs.Sums
import Mathlib.Analysis.SpecialFunctions.Pow.Real

/-!
# Penalties

The constraint sum of an energy is weighed.  In exact numbers a heavier weight
never lowers the energy, and it makes no difference just where all constraints
are satisfied.
-/

namespace DiagramEnergy

variable {σ τ N K : Type}

namespace Energy

section Weights

variable [Scalar N] [Field K] [LinearOrder K] [IsStrictOrderedRing K]
  {embed : N → K} {energy : Energy σ N} {values : List N}

variable (energy embed values) in
/-- A constraint call whose arguments are as it asks. -/
def SatisfiedAt (call : Call) : Prop :=
  ∃ arguments, energy.ArgumentsAt values call arguments ∧
    Satisfied embed call.name arguments

/-- The penalties of constraint calls are not negative, and they add up to zero
just if all calls are satisfied. -/
theorem sum_penalties [Nonempty σ] (exact : Scalar.IsExact embed)
    (standard : energy.registries = Standard.registries) {calls : List Call}
    (roles : ∀ call ∈ calls, call.role = .constraint) {scores : List N}
    (scored : List.Forall₂ (energy.ScoresAt values) calls scores) :
    0 ≤ (scores.map embed).sum ∧
      ((scores.map embed).sum = 0 ↔
        ∀ call ∈ calls, energy.SatisfiedAt embed values call) := by
  induction scored with
  | nil => simp
  | @cons call score calls scores first _ induction =>
      obtain ⟨role, roles⟩ := List.forall_mem_cons.1 roles
      obtain ⟨notNegative, zero⟩ := induction roles
      obtain ⟨arguments, come, scoredFirst⟩ := first
      rw [role, standard] at scoredFirst
      obtain ⟨firstNotNegative, firstZero⟩ :=
        Standard.judges_constraints exact scoredFirst
      have satisfied : energy.SatisfiedAt embed values call ↔
          Satisfied embed call.name arguments := by
        constructor
        · intro ⟨others, otherCome, satisfied⟩
          rw [come.unique otherCome]
          exact satisfied
        · exact fun satisfied => ⟨arguments, come, satisfied⟩
      rw [List.map_cons, List.sum_cons, List.forall_mem_cons, satisfied,
        ← firstZero, ← zero]
      exact ⟨add_nonneg firstNotNegative notNegative,
        add_eq_zero_iff_of_nonneg firstNotNegative notNegative⟩

theorem weighed_le (objective : K) {constraint weight lighter heavier : K}
    (notNegative : 0 ≤ constraint) (positive : 0 < weight)
    (ordered : lighter ≤ heavier) :
    objective + constraint * (weight * lighter) ≤
        objective + constraint * (weight * heavier) ∧
      (objective + constraint * (weight * lighter) =
          objective + constraint * (weight * heavier) ↔
        lighter = heavier ∨ constraint = 0) := by
  constructor
  · gcongr
  · rw [add_right_inj, mul_eq_mul_left_iff, mul_right_inj' positive.ne']

omit [Field K] [LinearOrder K] [IsStrictOrderedRing K] in
theorem arePure_of_standard
    (standard : energy.registries = Standard.registries) :
    energy.registries.computations.ArePure := by
  rw [standard]
  exact Standard.arePure_computations

/-- The penalties of an energy are not negative in total, and there are none
just if all constraints are satisfied. -/
theorem penalties_of_sums (exact : Scalar.IsExact embed)
    (standard : energy.registries = Standard.registries)
    (roles : ∀ call ∈ energy.constraints, call.role = .constraint)
    {world : σ} {objective constraint : N}
    (summed : energy.sums values world = .ok (objective, constraint)) :
    energy.IsObjectiveSum embed values (embed objective) ∧
    0 ≤ embed constraint ∧
    (embed constraint = 0 ↔
      ∀ call ∈ energy.constraints, energy.SatisfiedAt embed values call) := by
  have : Nonempty σ := ⟨world⟩
  have pureComputations := arePure_of_standard standard
  obtain ⟨objectiveSum, scores, scored, added⟩ :=
    scores_of_sums exact pureComputations summed
  rw [added]
  exact ⟨objectiveSum, sum_penalties exact standard roles scored⟩

end Weights

end Energy

/-- A heavier weight never lowers the energy of an assembled problem in exact
numbers.  It raises the energy just if it is heavier indeed and some constraint
is not satisfied; where all are, the energy is the objective sum. -/
theorem Problem.heavier_weight_raises_violations [Scalar N] [Field K]
    [LinearOrder K] [IsStrictOrderedRing K] {embed : N → K}
    (exact : Scalar.IsExact embed) {detail : Option Level}
    {store : Store Float} {catalog : Catalog}
    {registries : Registries σ Float} {config : Config}
    {run later : RunState σ} {problem : Problem σ}
    (ran : assemble detail store catalog registries config run =
      .ok problem later)
    (positive : 0 < embed (Scalar.ofFloat config.constraintWeight))
    (values : List N) {lighter heavier : N}
    (ordered : embed lighter ≤ embed heavier) (first second : RunState τ) :
    let energy : Energy τ N := problem.energy.lift Standard.registries
    let allSatisfied :=
      ∀ call ∈ energy.constraints, energy.SatisfiedAt embed values call
    ((∃ low, (energy.evaluate lighter values).outcome first = .ok low) ↔
      ∃ high, (energy.evaluate heavier values).outcome second = .ok high) ∧
    ∀ low high, (energy.evaluate lighter values).outcome first = .ok low →
      (energy.evaluate heavier values).outcome second = .ok high →
      embed low ≤ embed high ∧
      (low = high ↔ lighter = heavier ∨ allSatisfied) ∧
      (allSatisfied →
        energy.IsObjectiveSum embed values (embed low) ∧
        energy.IsObjectiveSum embed values (embed high)) := by
  intro energy allSatisfied
  have assembled := assembled_of_assemble ran
  have roles : ∀ call ∈ energy.constraints, call.role = .constraint := by
    intro call listed
    have listed : call ∈ problem.energy.constraints := listed
    rw [assembled.energy, assembled.constraints] at listed
    exact (mem_callsOf_iff.1 listed).2
  have weight : energy.constraintWeight = config.constraintWeight :=
    congrArg Energy.constraintWeight assembled.energy
  have standard : energy.registries = Standard.registries := rfl
  -- Nothing else matters about the energy, and no step should look into it.
  clear_value energy
  have pureComputations := Energy.arePure_of_standard standard
  rw [Energy.outcome_evaluate, Energy.outcome_evaluate, weight,
    Energy.sums_eq pureComputations values second.world first.world]
  cases summed : energy.sums values first.world with
  | error error =>
      constructor
      · constructor
        · rintro ⟨_, ⟨⟩⟩
        · rintro ⟨_, ⟨⟩⟩
      · rintro _ _ ⟨⟩
  | ok sums =>
      obtain ⟨objective, constraint⟩ := sums
      obtain ⟨objectiveSum, notNegative, zero⟩ :=
        Energy.penalties_of_sums exact standard roles summed
      change _ ↔ allSatisfied at zero
      obtain ⟨less, same⟩ := Energy.weighed_le (embed objective) notNegative
        positive ordered
      rw [zero] at same
      refine ⟨⟨fun _ => ⟨_, rfl⟩, fun _ => ⟨_, rfl⟩⟩, ?_⟩
      rintro _ _ ⟨⟩ ⟨⟩
      simp only [← exact.injective.eq_iff, exact.add, exact.mul]
      refine ⟨less, same, ?_⟩
      intro satisfied
      rw [zero.2 satisfied, zero_mul, add_zero, zero_mul, add_zero]
      exact ⟨objectiveSum, objectiveSum⟩

/-! ## A disc over the reals -/

/-- The real numbers as scalars. -/
structure Precise where
  number : ℝ

namespace Precise

/-- The real number that a float stands for, if there is one. -/
noncomputable def ofParts : FloatParts → ℝ
  | .finite negative significand exponent =>
    (if negative then -1 else 1) * significand * 2 ^ exponent
  | _ => 0

open Classical in
noncomputable instance : Scalar Precise where
  add left right := ⟨left.number + right.number⟩
  sub left right := ⟨left.number - right.number⟩
  mul left right := ⟨left.number * right.number⟩
  div left right := ⟨left.number / right.number⟩
  neg number := ⟨-number.number⟩
  ofFloat number := ⟨ofParts (.ofFloat number)⟩
  value number := .ofInt ⌊number.number⌋
  pow base exponent := ⟨base.number ^ exponent.number⟩
  sqrt number := ⟨√number.number⟩
  abs number := ⟨|number.number|⟩
  isZero number := decide (number.number = 0)
  max left right := ⟨max left.number right.number⟩
  min left right := ⟨min left.number right.number⟩

theorem number_ofFloat {value : Float} (significand : Nat) (exponent : Int)
    (parts : FloatParts.ofFloat value = .finite false significand exponent) :
    (Scalar.ofFloat value : Precise).number = significand * 2 ^ exponent := by
  change ofParts (.ofFloat value) = _
  rw [parts]
  simp [ofParts]

theorem isExact_number : Scalar.IsExact Precise.number where
  injective := by
    rintro ⟨left⟩ ⟨right⟩ ⟨⟩
    rfl
  zero := by
    rw [show (Scalar.zero : Precise) = Scalar.ofFloat 0 from rfl,
      number_ofFloat 0 (-1074) rfl]
    simp
  half := by
    rw [number_ofFloat (2 ^ 52) (-53) rfl]
    norm_num
  minSide := by
    rw [number_ofFloat (5 * 2 ^ 50) (-48) rfl]
    norm_num
  maxSide := by
    rw [number_ofFloat (125 * 2 ^ 46) (-45) rfl]
    norm_num
  add _ _ := rfl
  sub _ _ := rfl
  mul _ _ := rfl
  max _ _ := rfl
  min _ _ := rfl
  sqrt number notNegative :=
    ⟨Real.sqrt_nonneg number.number, Real.mul_self_sqrt notNegative⟩

theorem number_ofFloat_weight :
    (Scalar.ofFloat 10000 : Precise).number = 10000 := by
  rw [number_ofFloat (625 * 2 ^ 43) (-39) rfl]
  norm_num

end Precise

namespace Problem

/-- The energy of one disc over any numbers, with a budget of four. -/
def discEnergy (N : Type) [Scalar N] : Energy Unit N :=
  (⟨sampledDiscStore, [], [discCall], [.property "A" "disc" "r"],
    Standard.registries, 10000, 4⟩ : Energy Unit Float).lift
    Standard.registries

theorem lift_energy_of_assembleDisc (N : Type) [Scalar N]
    {run later : RunState Unit} {problem : Problem Unit}
    (ran : assembleDisc 4 run = .ok problem later) :
    (problem.energy.lift Standard.registries : Energy Unit N) =
      discEnergy N := by
  have assembled := assembled_of_assemble ran
  rw [assembled.energy, assembled.objectives, assembled.constraints,
    assembled.varyingPaths, store_of_assembleDisc ran]
  rfl

theorem sums_discEnergy {N : Type} [Scalar N] (radius : N) (world : Unit) :
    (discEnergy N).sums [radius] world = .ok (Scalar.zero, Scalar.zero +
      Standard.penalty (Scalar.ofFloat Standard.minSide - radius)) := by
  cbv

theorem outcome_evaluate_discEnergy (penaltyWeight radius : ℝ)
    (run : RunState Unit) :
    ∃ total, ((discEnergy Precise).evaluate ⟨penaltyWeight⟩
        [⟨radius⟩]).outcome run = .ok total ∧
      total.number = max (20 - radius) 0 ^ 2 * (10000 * penaltyWeight) := by
  rw [Energy.outcome_evaluate, sums_discEnergy]
  refine ⟨_, rfl, ?_⟩
  have exact := Precise.isExact_number
  have weight : (Scalar.ofFloat (discEnergy Precise).constraintWeight :
      Precise).number = 10000 := Precise.number_ofFloat_weight
  simp only [exact.add, exact.mul, exact.zero, weight, Standard.penalty,
    exact.max, exact.sub, Standard.minSide, exact.minSide]
  ring

/-- A disc of radius thirty is large enough, and one of radius ten is not. -/
theorem heavier_weight_raises_disc :
    Scalar.IsExact Precise.number ∧
    0 < (Scalar.ofFloat 10000 : Precise).number ∧
    ∃ (problem : Problem Unit) (later : RunState Unit),
      assembleDisc 4 ⟨(), []⟩ = .ok problem later ∧
      let energy : Energy Unit Precise := problem.energy.lift Standard.registries
      (∀ call ∈ energy.constraints,
        energy.SatisfiedAt Precise.number [⟨30⟩] call) ∧
      ¬ ∀ call ∈ energy.constraints,
        energy.SatisfiedAt Precise.number [⟨10⟩] call := by
  have exact := Precise.isExact_number
  have positive : 0 < (Scalar.ofFloat 10000 : Precise).number := by
    rw [Precise.number_ofFloat_weight]
    norm_num
  obtain ⟨problem, later, ran⟩ :=
    succeeds_assembleDisc (.inr rfl) ⟨(), []⟩ rfl
  refine ⟨exact, positive, problem, later, ran, ?_⟩
  intro energy
  have ordered : (⟨1⟩ : Precise).number ≤ (⟨2⟩ : Precise).number := one_le_two
  have distinct : (⟨1⟩ : Precise) ≠ ⟨2⟩ := by
    intro same
    have numbers := congrArg Precise.number same
    norm_num at numbers
  have laws (radius : ℝ) := (heavier_weight_raises_violations exact ran positive
    [⟨radius⟩] ordered ⟨(), []⟩ ⟨(), []⟩).2
  rw [lift_energy_of_assembleDisc Precise ran] at laws
  have same : energy = discEnergy Precise :=
    lift_energy_of_assembleDisc Precise ran
  rw [same]
  constructor
  · obtain ⟨low, lowRan, lowTotal⟩ := outcome_evaluate_discEnergy 1 30 ⟨(), []⟩
    obtain ⟨high, highRan, highTotal⟩ :=
      outcome_evaluate_discEnergy 2 30 ⟨(), []⟩
    have equal : low = high := exact.injective (by
      rw [lowTotal, highTotal]
      norm_num)
    exact ((laws 30 low high lowRan highRan).2.1.1 equal).resolve_left distinct
  · intro satisfied
    obtain ⟨low, lowRan, lowTotal⟩ := outcome_evaluate_discEnergy 1 10 ⟨(), []⟩
    obtain ⟨high, highRan, highTotal⟩ :=
      outcome_evaluate_discEnergy 2 10 ⟨(), []⟩
    have equal := (laws 10 low high lowRan highRan).2.1.2 (.inr satisfied)
    rw [equal, highTotal] at lowTotal
    norm_num at lowTotal

end Problem

end DiagramEnergy
