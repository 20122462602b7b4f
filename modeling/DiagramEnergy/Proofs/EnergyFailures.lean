import DiagramEnergy.Proofs.Evaluation.Failures
import DiagramEnergy.Proofs.Sums

/-!
# How energies fail

An energy whose calls are all registered for their roles fails only as
evaluation does, with a wrong number of values, or as the registered functions
do.
-/

namespace DiagramEnergy

open DiagramEnergy.Except (FailsWith)

variable {σ N : Type}

/-- All errors of the scored functions of one role are of one sort. -/
def ScoreTable.FailWith (sort : Error → Prop) (scores : ScoreTable N) : Prop :=
  ∀ name signature score, scores.functions.get? name = some (signature, score) →
    ∀ arguments, FailsWith sort (score arguments)

/-- All errors of all registered functions are of one sort. -/
structure Registries.FailWith (sort : Error → Prop)
    (registries : Registries σ N) : Prop where
  computations : registries.computations.FailWith sort
  scores : ∀ role, (registries.forRole role).FailWith sort

/-- The function of a call is registered for the role of the call. -/
def Registries.Knows (registries : Registries σ N) (role : Role)
    (name : String) : Prop :=
  (registries.forRole role).contains name = true

variable {sort : Error → Prop}

section Scores

variable (own : ∀ error : Error, error.IsEvaluation → sort error)
  (miscounted : ∀ context expected found, sort (.arity context expected found))
include own miscounted

theorem Signature.failsWith_check (signature : Signature) (function : String)
    (arguments : List (Evaluated N)) :
    FailsWith sort (signature.check function arguments) := by
  have checked (position : Nat)
      (pairs : List (ArgumentType × Evaluated N)) :
      FailsWith sort (checkFrom function position pairs) := by
    induction pairs generalizing position with
    | nil => trivial
    | cons pair pairs induction =>
        rw [checkFrom]
        split
        · exact induction (position + 1)
        · exact own _ trivial
  unfold check
  split
  · exact checked 1 _
  · exact miscounted _ _ _

theorem ScoreTable.failsWith_call {scores : ScoreTable N}
    (fail : scores.FailWith sort) {name : String}
    (known : scores.contains name = true) (arguments : List (Evaluated N)) :
    FailsWith sort (scores.call name arguments) := by
  unfold call
  cases found : scores.functions.get? name with
  | none => simp [contains, Table.contains, found] at known
  | some registered =>
      obtain ⟨signature, score⟩ := registered
      exact (signature.failsWith_check own miscounted name arguments).bind
        fun _ => fail name signature score found arguments

theorem Energy.failsWith_score [Scalar N] {registries : Registries σ N}
    (fail : registries.FailWith sort) {calls : List (EvaluatedCall N)}
    (known : ∀ call ∈ calls, registries.Knows call.role call.name) (total : N) :
    FailsWith sort (score registries total calls) := by
  induction calls generalizing total with
  | nil => trivial
  | cons call calls induction =>
      exact (ScoreTable.failsWith_call own miscounted (fail.scores call.role)
        (known call (by simp)) call.arguments).bind fun scored =>
          induction (fun other member => known other (by simp [member])) _

end Scores

namespace Evaluator

variable [Scalar N] (evaluator : Evaluator σ N) (overrides : Overrides N)

/-- Evaluation changes neither the role nor the name of a call. -/
theorem ensures_descendCall_same (call : Call) :
    Ensures (fun _ => True) (evaluator.descendCall overrides call)
      fun outcome _ => True ∧ ∀ evaluated, outcome = .ok evaluated →
        evaluated.role = call.role ∧ evaluated.name = call.name := by
  intro memory _
  rw [descendCall, Descent.run_map]
  refine ⟨trivial, ?_⟩
  intro evaluated same
  obtain ⟨arguments, -, ⟨⟩⟩ := Except.bind_eq_ok.1
    ((map_eq_pure_bind _ _).symm.trans same)
  exact ⟨rfl, rfl⟩

/-- Evaluated calls are known if the calls that they come from are. -/
theorem ensures_mapM_descendCall_known {registries : Registries σ N}
    {calls : List Call}
    (known : ∀ call ∈ calls, registries.Knows call.role call.name) :
    Ensures (fun _ => True) (calls.mapM (evaluator.descendCall overrides))
      fun outcome _ => ∀ evaluated, outcome = .ok evaluated →
        ∀ call ∈ evaluated, registries.Knows call.role call.name := by
  intro memory _ evaluated succeeded call member
  obtain ⟨-, paired⟩ := Ensures.mapM calls
    (fun call _ => evaluator.ensures_descendCall_same overrides call)
    memory trivial
  obtain ⟨sameLength, same⟩ := paired evaluated succeeded
  rw [← List.map_snd_zip (Nat.le_of_eq sameLength)] at member
  obtain ⟨⟨source, _⟩, both, rfl⟩ := List.mem_map.1 member
  obtain ⟨role, name⟩ := same _ both
  rw [role, name]
  exact known source (List.of_mem_zip both).1

end Evaluator

namespace Energy

variable [Scalar N] {energy : Energy σ N}

theorem raises_descendCalls
    (own : ∀ error : Error, error.IsEvaluation → sort error)
    (called : energy.registries.computations.FailWith sort)
    (overrides : Overrides N) :
    Raises sort (energy.descendCalls overrides) := by
  have each (call : Call) :
      Raises sort (energy.ownEvaluator.descendCall overrides call) :=
    (Raises.mapM call.arguments (Evaluator.raises_descend own called overrides
      true _).1).bind fun _ => .pure _
  exact (Raises.mapM _ each).bind fun _ => (Raises.mapM _ each).bind
    fun _ => .pure _

theorem ensures_descendCalls_known
    (known : ∀ call ∈ energy.objectives ++ energy.constraints,
      energy.registries.Knows call.role call.name) (overrides : Overrides N) :
    Ensures (fun _ => True) (energy.descendCalls overrides)
      fun outcome _ => ∀ calls, outcome = .ok calls →
        ∀ call ∈ calls.1 ++ calls.2,
          energy.registries.Knows call.role call.name := by
  simp only [List.mem_append] at known
  refine Ensures.bind (energy.ownEvaluator.ensures_mapM_descendCall_known
    overrides fun call member => known call (.inl member)) ?_ ?_
  · intro objectives memory first
    rw [Descent.run_map]
    intro calls same call member
    obtain ⟨constraints, ran, ⟨⟩⟩ := Except.bind_eq_ok.1
      ((map_eq_pure_bind _ _).symm.trans same)
    rcases List.mem_append.1 member with member | member
    · exact first objectives rfl call member
    · exact energy.ownEvaluator.ensures_mapM_descendCall_known overrides
        (fun call member => known call (.inr member)) memory trivial
        constraints ran call member
  · rintro _ _ _ _ ⟨⟩

/-- An energy whose calls are registered fails as evaluation does, with a wrong
number of values, or as the functions that it uses. -/
theorem failsWith_evaluate
    (own : ∀ error : Error, error.IsEvaluation → sort error)
    (miscounted : ∀ context expected found,
      sort (.arity context expected found))
    (fail : energy.registries.FailWith sort)
    (known : ∀ call ∈ energy.objectives ++ energy.constraints,
      energy.registries.Knows call.role call.name)
    (penaltyWeight : N) (values : List N) (run : RunState σ) :
    FailsWith sort ((energy.evaluate penaltyWeight values).outcome run) := by
  have paired : FailsWith sort
      (Overrides.ofParts energy.varyingPaths values) := by
    unfold Overrides.ofParts
    split
    · trivial
    · exact miscounted _ _ _
  rw [outcome_evaluate]
  apply FailsWith.map
  apply paired.bind
  intro overrides
  have raised := raises_descendCalls own fail.computations overrides
    ⟨energy.store, run.world⟩ trivial
  have named := ensures_descendCalls_known known overrides
    ⟨energy.store, run.world⟩ trivial
  cases ended : ((energy.descendCalls overrides).run
      ⟨energy.store, run.world⟩).1 with
  | error error =>
      rw [ended] at raised
      exact raised
  | ok calls =>
      have each := named calls ended
      simp only [List.mem_append] at each
      refine (failsWith_score own miscounted fail
        (fun call member => each call (.inl member)) _).bind fun objective => ?_
      exact (failsWith_score own miscounted fail
        (fun call member => each call (.inr member)) _).bind fun _ => trivial

end Energy

end DiagramEnergy
