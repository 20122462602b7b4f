import DiagramEnergy.Proofs.Energy
import DiagramEnergy.Proofs.Numbers.Mirroring

/-!
# Energies over changed numbers

The terms of an energy are what its functions score on the arguments of its
calls.  If the functions of two energies mirror one another, and so do their
stores, then so do their terms.
-/

namespace DiagramEnergy

variable {σ M N : Type}

/-! ## Scoring -/

theorem ArgumentType.accepts_mapFloat (change : N → M) (wanted : ArgumentType)
    (argument : Evaluated N) :
    wanted.accepts (argument.mapFloat change) = wanted.accepts argument := by
  cases argument with
  | shaped shape => cases wanted <;> rfl
  | plain value => cases wanted <;> cases value <;> rfl

namespace Signature

theorem checkFrom_mapFloat (change : N → M) (function : String)
    (wanted : List ArgumentType) (arguments : List (Evaluated N))
    (position : Nat) :
    checkFrom function position
      (wanted.zip (arguments.map (Evaluated.mapFloat change))) =
        checkFrom function position (wanted.zip arguments) := by
  induction wanted generalizing arguments position with
  | nil => rfl
  | cons first wanted induction =>
      cases arguments with
      | nil => rfl
      | cons argument arguments =>
          simp only [List.map_cons, List.zip_cons_cons, checkFrom,
            ArgumentType.accepts_mapFloat, Evaluated.label_mapFloat, induction]

theorem check_mapFloat (change : N → M) (signature : Signature)
    (function : String) (arguments : List (Evaluated N)) :
    signature.check function (arguments.map (Evaluated.mapFloat change)) =
      signature.check function arguments := by
  simp only [check, List.length_map, checkFrom_mapFloat]

end Signature

section Scoring

variable {excused : Error → Prop} {change : N → M}

theorem ScoreTable.Mirrors.call {first : ScoreTable N} {second : ScoreTable M}
    (mirrors : ScoreTable.Mirrors excused change first second) (name : String)
    (arguments : List (Evaluated N)) :
    DiagramEnergy.Mirrors excused change (first.call name arguments)
      (second.call name (arguments.map (Evaluated.mapFloat change))) := by
  have registered := mirrors.functions name
  unfold ScoreTable.call
  cases found : first.functions.get? name with
  | none =>
      rw [found] at registered
      cases other : second.functions.get? name with
      | none =>
          rw [mirrors.role]
          exact .error _
      | some entry =>
          rw [other] at registered
          cases registered
  | some entry =>
      rw [found] at registered
      cases other : second.functions.get? name with
      | none =>
          rw [other] at registered
          cases registered
      | some counterpart =>
          rw [other] at registered
          cases registered with
          | some related =>
              obtain ⟨sameSignature, score⟩ := related
              simp only
              rw [sameSignature, Signature.check_mapFloat]
              cases entry.1.check name arguments with
              | error error => exact .error error
              | ok _ => exact score arguments

theorem Registries.Mirrors.forRole {first : Registries σ N}
    {second : Registries σ M}
    (mirrors : Registries.Mirrors excused change first second) (role : Role) :
    ScoreTable.Mirrors excused change (first.forRole role)
      (second.forRole role) := by
  cases role with
  | objective => exact mirrors.objectives
  | constraint => exact mirrors.constraints

variable [Scalar M] [Scalar N]

theorem Energy.mirrors_score (carries : Scalar.Carries change)
    {first : Registries σ N} {second : Registries σ M}
    (mirrors : Registries.Mirrors excused change first second)
    (calls : List (EvaluatedCall N)) (total : N) :
    Mirrors excused change (score first total calls)
      (score second (change total)
        (calls.map (EvaluatedCall.mapFloat change))) := by
  induction calls generalizing total with
  | nil => exact .ok
  | cons call calls induction =>
      have scored := (mirrors.forRole call.role).call call.name call.arguments
      apply scored.bind
      intro result _
      rw [← carries.add]
      exact induction (total + result)

end Scoring

/-! ## Terms -/

namespace Evaluator

variable [Scalar M] [Scalar N] {excused : Error → Prop} {change : N → M}
  {first : Evaluator σ N} {second : Evaluator σ M}

theorem mirrors_descendCall (carries : Scalar.Carries change)
    (computations : Computations.Mirrors excused change first.computations
      second.computations)
    (sameLimit : second.limit = first.limit) (overrides : Overrides N)
    (call : Call) :
    MirrorsRun excused change (EvaluatedCall.mapFloat change)
      (first.descendCall overrides call)
      (second.descendCall (overrides.mapFloat change) call) := by
  unfold descendCall
  rw [sameLimit]
  have arguments := MirrorsRun.mapM call.arguments fun argument _ =>
    (mirrors_descend carries computations sameLimit overrides true
      (first.limit - 1)).1 argument
  apply arguments.bind
  intro results
  exact MirrorsRun.pure (EvaluatedCall.mk call.role call.name results)

end Evaluator

namespace Energy

/-- Energies that differ in their numbers only, with functions that mirror one
another. -/
structure Mirrors (excused : Error → Prop) (change : N → M)
    (first : Energy σ N) (second : Energy σ M) : Prop where
  store : second.store = first.store.mapFloat change
  objectives : second.objectives = first.objectives
  constraints : second.constraints = first.constraints
  varyingPaths : second.varyingPaths = first.varyingPaths
  registries : Registries.Mirrors excused change first.registries
    second.registries
  constraintWeight : second.constraintWeight = first.constraintWeight
  recursionLimit : second.recursionLimit = first.recursionLimit

/-- The lifts of one energy differ in their numbers only. -/
theorem mirrors_lift {τ : Type} [Scalar M] [Scalar N] {excused : Error → Prop}
    {change : N → M} (carries : ∀ number : Float,
      change (Scalar.ofFloat number) = Scalar.ofFloat number)
    {first : Registries σ N} {second : Registries σ M}
    (registries : Registries.Mirrors excused change first second)
    (energy : Energy τ Float) :
    Mirrors excused change (energy.lift first) (energy.lift second) where
  store := (energy.store.mapFloat_lift change carries).symm
  objectives := rfl
  constraints := rfl
  varyingPaths := rfl
  registries := registries
  constraintWeight := rfl
  recursionLimit := rfl

section Outcome

variable [Scalar N] (energy : Energy σ N)

/-- The terms that evaluated calls score. -/
def scoreCalls (penaltyWeight : N)
    (calls : List (EvaluatedCall N) × List (EvaluatedCall N)) :
    Except Error (EnergyTerms N) := do
  let objective ← score energy.registries Scalar.zero calls.1
  let constraint ← score energy.registries Scalar.zero calls.2
  return ⟨objective,
    constraint * (Scalar.ofFloat energy.constraintWeight * penaltyWeight)⟩

/-- The terms without the run that computes them. -/
theorem outcome_terms (penaltyWeight : N) (values : List N)
    (run : RunState σ) :
    (energy.terms penaltyWeight values).outcome run = (do
      let overrides ← Overrides.ofParts energy.varyingPaths values
      let calls ← ((energy.descendCalls overrides).run
        ⟨energy.store, run.world⟩).1
      energy.scoreCalls penaltyWeight calls) := by
  unfold terms
  rw [Run.outcome_ofExcept_bind]
  congr 1
  funext overrides
  obtain ⟨later, sameWorld, same⟩ :=
    (Run.Remarks.evaluator energy.registries.computations
      energy.recursionLimit).outcome_bind run
  refine same.trans ?_
  calc
    _ = (Run.evaluate energy.store (energy.evalCalls energy.ownEvaluator
          overrides)).outcome later >>= energy.scoreCalls penaltyWeight := by
      apply Run.outcome_bind_of_const
      intro calls last
      rw [Run.outcome_ofExcept_bind]
      unfold scoreCalls
      congr 1
      funext objective
      rw [Run.outcome_ofExcept_bind]
      rfl
    _ = _ := by
      rw [Run.outcome_evaluate, sameWorld, erases_evalCalls]
      rfl

end Outcome

namespace Mirrors

variable [Scalar M] [Scalar N] {excused : Error → Prop} {change : N → M}
  {first : Energy σ N} {second : Energy σ M}

theorem descendCalls (mirrors : Mirrors excused change first second)
    (carries : Scalar.Carries change) (overrides : Overrides N) :
    MirrorsRun excused change
      (Prod.map (List.map (EvaluatedCall.mapFloat change))
        (List.map (EvaluatedCall.mapFloat change)))
      (first.descendCalls overrides)
      (second.descendCalls (overrides.mapFloat change)) := by
  have sameLimit : second.ownEvaluator.limit = first.ownEvaluator.limit := by
    simp only [ownEvaluator, Evaluator.capped, mirrors.recursionLimit]
  have each := Evaluator.mirrors_descendCall carries
    mirrors.registries.computations sameLimit overrides
  unfold Energy.descendCalls
  rw [mirrors.objectives, mirrors.constraints]
  apply (MirrorsRun.mapM first.objectives fun call _ => each call).bind
  intro objectives
  apply (MirrorsRun.mapM first.constraints fun call _ => each call).bind
  intro constraints
  exact MirrorsRun.pure (objectives, constraints)

theorem scoreCalls (mirrors : Mirrors excused change first second)
    (carries : Scalar.Carries change) (penaltyWeight : N)
    (calls : List (EvaluatedCall N) × List (EvaluatedCall N)) :
    DiagramEnergy.Mirrors excused (EnergyTerms.mapFloat change)
      (first.scoreCalls penaltyWeight calls)
      (second.scoreCalls (change penaltyWeight)
        (Prod.map (List.map (EvaluatedCall.mapFloat change))
          (List.map (EvaluatedCall.mapFloat change)) calls)) := by
  unfold Energy.scoreCalls
  rw [mirrors.constraintWeight, ← carries.zero]
  apply (mirrors_score carries mirrors.registries calls.1 _).bind
  intro objective _
  apply (mirrors_score carries mirrors.registries calls.2 _).bind
  intro constraint _
  rw [← carries.ofFloat, ← carries.mul, ← carries.mul]
  exact .ok

/-- Energies that mirror one another have terms that do. -/
theorem terms (mirrors : Mirrors excused change first second)
    (carries : Scalar.Carries change) (penaltyWeight : N) (values : List N)
    (run : RunState σ) :
    DiagramEnergy.Mirrors excused (EnergyTerms.mapFloat change)
      ((first.terms penaltyWeight values).outcome run)
      ((second.terms (change penaltyWeight)
        (values.map change)).outcome run) := by
  rw [outcome_terms, outcome_terms, mirrors.varyingPaths, mirrors.store,
    Overrides.ofParts_map]
  have paired : DiagramEnergy.Mirrors excused (Overrides.mapFloat change)
      (Overrides.ofParts first.varyingPaths values)
      (Overrides.mapFloat change <$>
        Overrides.ofParts first.varyingPaths values) := .of_eq rfl
  apply paired.bind
  intro overrides _
  apply ((mirrors.descendCalls carries overrides).outcome
    ⟨first.store, run.world⟩).bind
  intro calls _
  exact mirrors.scoreCalls carries penaltyWeight calls

theorem evaluate (mirrors : Mirrors excused change first second)
    (carries : Scalar.Carries change) (penaltyWeight : N) (values : List N)
    (run : RunState σ) :
    DiagramEnergy.Mirrors excused change
      ((first.evaluate penaltyWeight values).outcome run)
      ((second.evaluate (change penaltyWeight)
        (values.map change)).outcome run) := by
  unfold Energy.evaluate
  rw [Run.outcome_map, Run.outcome_map]
  have scored := mirrors.terms carries penaltyWeight values run
  rw [map_eq_pure_bind, map_eq_pure_bind]
  apply scored.bind
  intro terms _
  exact .of_eq (congrArg Except.ok
    (carries.add terms.objective terms.constraint).symm)

end Mirrors

end Energy

end DiagramEnergy
