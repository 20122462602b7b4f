import DiagramEnergy.Proofs.Evaluation.Locality
import DiagramEnergy.Proofs.Numbers.Energies
import DiagramEnergy.Proofs.Numbers.Violations

/-!
# Sums of scores

An energy adds up the scores of its calls: of the objectives, and apart from
them of the constraints, whose sum it weighs.  With pure computations each call
is scored on what its arguments come to by name.
-/

namespace DiagramEnergy

variable {σ N K : Type}

namespace Energy

open ByName

variable [Scalar N] (energy : Energy σ N)

/-- What the arguments of a call come to, by name, at some varying values. -/
def ArgumentsAt (values : List N) (call : Call)
    (arguments : List (Evaluated N)) : Prop :=
  ∃ overrides, Overrides.ofParts energy.varyingPaths values = .ok overrides ∧
    EvaluatesAll energy.registries.computations energy.store overrides
      call.arguments (.ok arguments)

def ScoresAt (values : List N) (call : Call) (score : N) : Prop :=
  ∃ arguments, energy.ArgumentsAt values call arguments ∧
    (energy.registries.forRole call.role).call call.name arguments = .ok score

/-- The objective sum at some varying values. -/
def IsObjectiveSum [Field K] (embed : N → K) (values : List N) (sum : K) :
    Prop :=
  ∃ scores, List.Forall₂ (energy.ScoresAt values) energy.objectives scores ∧
    sum = (scores.map embed).sum

/-- Both sums, before the constraints are weighed. -/
def sums (values : List N) (world : σ) : Except Error (N × N) := do
  let overrides ← Overrides.ofParts energy.varyingPaths values
  let calls ← ((energy.descendCalls overrides).run ⟨energy.store, world⟩).1
  let objective ← score energy.registries Scalar.zero calls.1
  let constraint ← score energy.registries Scalar.zero calls.2
  return (objective, constraint)

theorem outcome_evaluate (penaltyWeight : N) (values : List N)
    (run : RunState σ) :
    (energy.evaluate penaltyWeight values).outcome run =
      (fun sums => sums.1 + sums.2 *
        (Scalar.ofFloat energy.constraintWeight * penaltyWeight)) <$>
        energy.sums values run.world := by
  unfold evaluate
  rw [Run.outcome_map, outcome_terms, sums, map_bind, map_bind]
  congr 1
  funext overrides
  rw [map_bind, map_bind]
  congr 1
  funext calls
  simp only [scoreCalls, map_bind, map_pure]
  rfl

variable {energy}

theorem ArgumentsAt.unique [Nonempty σ] {values : List N} {call : Call}
    {first second : List (Evaluated N)}
    (left : energy.ArgumentsAt values call first)
    (right : energy.ArgumentsAt values call second) : first = second := by
  obtain ⟨overrides, paired, left⟩ := left
  obtain ⟨_, same, right⟩ := right
  rw [paired] at same
  cases same
  exact left.deterministic right

/-! ## One result for every state of the computations -/

theorem coincide_descendCalls
    (pureComputations : energy.registries.computations.ArePure)
    (overrides : Overrides N) (reach : Path → Prop)
    (everywhere : ∀ path, reach path) :
    Coincide reach overrides overrides (energy.descendCalls overrides)
      (energy.descendCalls overrides) := by
  have ownPure : energy.ownEvaluator.computations.ArePure := pureComputations
  have each (call : Call) : Coincide reach overrides overrides
      (energy.ownEvaluator.descendCall overrides call)
      (energy.ownEvaluator.descendCall overrides call) := by
    have exprs := (Evaluator.coincide_descend ownPure overrides overrides
      reach true (energy.ownEvaluator.limit - 1)).1
    have arguments := Coincide.mapM call.arguments fun argument _ =>
      exprs argument fun next _ => everywhere next
    exact arguments.bind fun results =>
      Coincide.pure (EvaluatedCall.mk call.role call.name results)
  have objectives := Coincide.mapM energy.objectives fun call _ => each call
  have constraints := Coincide.mapM energy.constraints fun call _ => each call
  exact objectives.bind fun objectives =>
    constraints.bind fun constraints => Coincide.pure (objectives, constraints)

/-- The sums do not depend on the state that pure computations are given. -/
theorem sums_eq (pureComputations : energy.registries.computations.ArePure)
    (values : List N) (first second : σ) :
    energy.sums values first = energy.sums values second := by
  unfold sums
  congr 1
  funext overrides
  have agree : Store.AgreeOn (fun _ => True) energy.store overrides
      energy.store overrides := ⟨fun _ _ => rfl, fun _ _ _ => rfl⟩
  have same := (coincide_descendCalls pureComputations overrides _
    (fun _ => trivial) ⟨energy.store, first⟩ ⟨energy.store, second⟩
    ⟨energy.store.closed_all overrides, agree⟩).1
  rw [same]

/-! ## The scores of an evaluation -/

/-- A call with what its arguments come to by name. -/
def Comes (computations : Computations σ N) (start : Store N)
    (overrides : Overrides N) (call : Call) (evaluated : EvaluatedCall N) :
    Prop :=
  evaluated.role = call.role ∧ evaluated.name = call.name ∧
    EvaluatesAll computations start overrides call.arguments
      (.ok evaluated.arguments)

theorem ensures_descendCall {evaluator : Evaluator σ N}
    (pureComputations : evaluator.computations.ArePure)
    (overrides : Overrides N) (start : Store N) (call : Call) :
    Ensures (Remembers evaluator.computations overrides start)
      (evaluator.descendCall overrides call) fun outcome later =>
        Remembers evaluator.computations overrides start later ∧
        ∀ evaluated, outcome = .ok evaluated →
          Comes evaluator.computations start overrides call evaluated := by
  have sound := Sound.arguments call.arguments
    (sound_descend pureComputations overrides start true
      (evaluator.limit - 1)).1
  refine Ensures.bind sound ?_ ?_
  · intro arguments
    apply Ensures.pure
    intro store ⟨remembers, answered⟩
    refine ⟨remembers, ?_⟩
    rintro _ ⟨⟩
    rcases answered with spent | evaluation
    · exact spent.elim
    · exact ⟨rfl, rfl, evaluation⟩
  · intro error store ⟨remembers, _⟩
    refine ⟨remembers, ?_⟩
    rintro _ ⟨⟩

theorem ensures_mapM_descendCall {evaluator : Evaluator σ N}
    (pureComputations : evaluator.computations.ArePure)
    (overrides : Overrides N) (start : Store N) (calls : List Call) :
    Ensures (Remembers evaluator.computations overrides start)
      (calls.mapM (evaluator.descendCall overrides)) fun outcome later =>
        Remembers evaluator.computations overrides start later ∧
        ∀ evaluated, outcome = .ok evaluated →
          List.Forall₂ (Comes evaluator.computations start overrides) calls
            evaluated := by
  intro memory remembers
  obtain ⟨later, comes⟩ := Ensures.mapM calls
    (fun call _ => ensures_descendCall pureComputations overrides start call)
    memory remembers
  refine ⟨later, ?_⟩
  intro evaluated succeeded
  obtain ⟨sameLength, pairs⟩ := comes evaluated succeeded
  exact List.forall₂_iff_zip.2 ⟨sameLength.symm, fun member => pairs _ member⟩

theorem comes_of_descendCalls
    (pureComputations : energy.registries.computations.ArePure)
    {overrides : Overrides N} {world : σ}
    {calls : List (EvaluatedCall N) × List (EvaluatedCall N)}
    (ran : ((energy.descendCalls overrides).run ⟨energy.store, world⟩).1 =
      .ok calls) :
    let comes := Comes energy.registries.computations energy.store overrides
    List.Forall₂ comes energy.objectives calls.1 ∧
      List.Forall₂ comes energy.constraints calls.2 := by
  intro comes
  have ownPure : energy.ownEvaluator.computations.ArePure := pureComputations
  have each := ensures_mapM_descendCall ownPure overrides energy.store
  have both : Ensures
      (Remembers energy.registries.computations overrides energy.store)
      (energy.descendCalls overrides) fun outcome _ =>
        ∀ calls, outcome = .ok calls →
          List.Forall₂ comes energy.objectives calls.1 ∧
            List.Forall₂ comes energy.constraints calls.2 := by
    refine Ensures.bind (each energy.objectives) ?_ ?_
    · intro objectives memory ⟨remembers, first⟩
      obtain ⟨-, later⟩ := each energy.constraints memory remembers
      rw [Descent.run_map]
      intro calls same
      obtain ⟨constraints, second, ⟨⟩⟩ := Except.bind_eq_ok.1
        ((map_eq_pure_bind _ _).symm.trans same)
      exact ⟨first objectives rfl, later constraints second⟩
    · rintro _ _ _ _ ⟨⟩
  exact both ⟨energy.store, world⟩ (.refl energy.store) calls ran

/-- A score is the sum of the scores of its calls. -/
theorem scores_of_score [Field K] [LinearOrder K] {embed : N → K}
    (exact : Scalar.IsExact embed) {overrides : Overrides N} {values : List N}
    (paired : Overrides.ofParts energy.varyingPaths values = .ok overrides)
    {calls : List Call} {evaluated : List (EvaluatedCall N)} {total sum : N}
    (comes : List.Forall₂ (Comes energy.registries.computations energy.store
      overrides) calls evaluated)
    (scored : score energy.registries total evaluated = .ok sum) :
    ∃ scores, List.Forall₂ (energy.ScoresAt values) calls scores ∧
      embed sum = embed total + (scores.map embed).sum := by
  induction comes generalizing total with
  | nil =>
      cases scored
      exact ⟨[], .nil, by simp⟩
  | @cons call first calls evaluated came others induction =>
      obtain ⟨role, name, arguments⟩ := came
      obtain ⟨score, scoredFirst, scoredRest⟩ := Except.bind_eq_ok.1 scored
      obtain ⟨scores, rest, added⟩ := induction scoredRest
      rw [role, name] at scoredFirst
      refine ⟨score :: scores, .cons ?_ rest, ?_⟩
      · exact ⟨first.arguments, ⟨overrides, paired, arguments⟩, scoredFirst⟩
      · rw [added, exact.add, List.map_cons, List.sum_cons, add_assoc]

theorem scores_of_sums [Field K] [LinearOrder K] {embed : N → K}
    (exact : Scalar.IsExact embed)
    (pureComputations : energy.registries.computations.ArePure)
    {values : List N} {world : σ} {objective constraint : N}
    (summed : energy.sums values world = .ok (objective, constraint)) :
    energy.IsObjectiveSum embed values (embed objective) ∧
    ∃ scores, List.Forall₂ (energy.ScoresAt values) energy.constraints scores ∧
      embed constraint = (scores.map embed).sum := by
  unfold sums at summed
  obtain ⟨overrides, paired, summed⟩ := Except.bind_eq_ok.1 summed
  obtain ⟨calls, ran, summed⟩ := Except.bind_eq_ok.1 summed
  obtain ⟨_, scoredObjectives, summed⟩ := Except.bind_eq_ok.1 summed
  obtain ⟨_, scoredConstraints, ⟨⟩⟩ := Except.bind_eq_ok.1 summed
  obtain ⟨objectives, constraints⟩ := comes_of_descendCalls pureComputations ran
  obtain ⟨objectiveScores, objectiveList, objectiveSum⟩ :=
    scores_of_score exact paired objectives scoredObjectives
  obtain ⟨constraintScores, constraintList, constraintSum⟩ :=
    scores_of_score exact paired constraints scoredConstraints
  rw [exact.zero, zero_add] at objectiveSum constraintSum
  exact ⟨⟨objectiveScores, objectiveList, objectiveSum⟩,
    constraintScores, constraintList, constraintSum⟩

end Energy

end DiagramEnergy
