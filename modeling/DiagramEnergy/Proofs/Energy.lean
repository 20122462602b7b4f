import DiagramEnergy.Energy
import DiagramEnergy.Proofs.Evaluation.Threading
import DiagramEnergy.Proofs.Evaluation.Transparency
import DiagramEnergy.Proofs.Run

/-!
# What an energy scores

All arguments of all calls are evaluated on one store.  With pure computations
the calls are nevertheless scored on the arguments that each of them has on a
store of its own.
-/

namespace DiagramEnergy

variable {σ N : Type}

/-- A call with the arguments that a function gives to their expressions. -/
def Call.evaluatedBy (value : Expr → Evaluated N) (call : Call) :
    EvaluatedCall N :=
  ⟨call.role, call.name, call.arguments.map value⟩

namespace Evaluator

open ByName

variable [Scalar N] {evaluator : Evaluator σ N} {overrides : Overrides N}
  {start : Store N} {value : Expr → Evaluated N}

variable (evaluator overrides) in
def descendCall (call : Call) : Descent σ N (EvaluatedCall N) := do
  let arguments ← call.arguments.mapM
    (evaluator.descendExpr overrides true (evaluator.limit - 1))
  return ⟨call.role, call.name, arguments⟩

variable (evaluator overrides) in
theorem erases_evalCall (call : Call) :
    Erases (evaluator.evalCall overrides call)
      (evaluator.descendCall overrides call) := by
  have erases := (evaluator.erases_evalExpr_visit overrides
    (evaluator.limit - 1)).1
  exact (Erases.mapM erases call.arguments).bind fun arguments =>
    Erases.pure (EvaluatedCall.mk call.role call.name arguments)

theorem yields_descendCall {call : Call}
    (arguments : ∀ argument ∈ call.arguments,
      Yields evaluator.computations overrides start
        (evaluator.descendExpr overrides true (evaluator.limit - 1) argument)
        (value argument)) :
    Yields evaluator.computations overrides start
      (evaluator.descendCall overrides call) (call.evaluatedBy value) :=
  (Yields.mapM arguments).bind (Yields.pure _)

end Evaluator

namespace Energy

open ByName

variable [Scalar N] {energy : Energy σ N} {overrides : Overrides N}
  {value : Expr → Evaluated N}

variable (energy) in
/-- The evaluator with the budget that an energy allows itself. -/
def ownEvaluator : Evaluator σ N :=
  .capped energy.registries.computations energy.recursionLimit

variable (energy overrides) in
def descendCalls :
    Descent σ N (List (EvaluatedCall N) × List (EvaluatedCall N)) := do
  let objectives ← energy.objectives.mapM
    (energy.ownEvaluator.descendCall overrides)
  let constraints ← energy.constraints.mapM
    (energy.ownEvaluator.descendCall overrides)
  return (objectives, constraints)

theorem erases_evalCalls :
    Erases (energy.evalCalls energy.ownEvaluator overrides)
      (energy.descendCalls overrides) := by
  have objectives := Erases.mapM
    (energy.ownEvaluator.erases_evalCall overrides)
    energy.objectives
  have constraints := Erases.mapM
    (energy.ownEvaluator.erases_evalCall overrides)
    energy.constraints
  exact objectives.bind fun objectives =>
    constraints.bind fun constraints => Erases.pure (objectives, constraints)

theorem yields_descendCalls
    (yields : ∀ call ∈ energy.objectives ++ energy.constraints,
      Yields energy.ownEvaluator.computations overrides energy.store
        (energy.ownEvaluator.descendCall overrides call)
        (call.evaluatedBy value)) :
    Yields energy.ownEvaluator.computations overrides energy.store
      (energy.descendCalls overrides)
      (energy.objectives.map (Call.evaluatedBy value),
        energy.constraints.map (Call.evaluatedBy value)) := by
  have objectives := Yields.mapM fun call member =>
    yields call (List.mem_append_left _ member)
  have constraints := Yields.mapM fun call member =>
    yields call (List.mem_append_right _ member)
  exact objectives.bind (constraints.bind (Yields.pure _))

theorem evalCalls_of_fresh
    (pureComputations : energy.registries.computations.ArePure)
    (fresh : ∀ call ∈ energy.objectives ++ energy.constraints,
      ∀ argument ∈ call.arguments, ∃ pass : Pass σ N,
        pass.store = energy.store ∧
        (Evaluation.forget
          (energy.ownEvaluator.evalExprAt overrides 1 argument pass)).1 =
          .ok (value argument)) (world : σ) :
    (Evaluation.forget (energy.evalCalls energy.ownEvaluator overrides
      ⟨energy.store, world, []⟩)).1 =
      .ok (energy.objectives.map (Call.evaluatedBy value),
        energy.constraints.map (Call.evaluatedBy value)) := by
  have yields : ∀ call ∈ energy.objectives ++ energy.constraints,
      Yields energy.ownEvaluator.computations overrides energy.store
        (energy.ownEvaluator.descendCall overrides call)
        (call.evaluatedBy value) := by
    intro call member
    apply Evaluator.yields_descendCall
    intro argument argumentMember
    obtain ⟨pass, same, succeeded⟩ := fresh call member argument argumentMember
    rw [Evaluator.forget_evalExprAt] at succeeded
    have whole : pass.memory = ⟨energy.store, pass.world⟩ := by
      rw [← same]
      rfl
    rw [whole] at succeeded
    exact yields_descendExpr pureComputations succeeded
  rw [erases_evalCalls]
  exact (yields_descendCalls yields ⟨energy.store, world⟩ warm_start).1

/-- The terms that come of scoring calls with the given arguments. -/
def scoredTerms (energy : Energy σ N) (penaltyWeight : N)
    (value : Expr → Evaluated N) : Except Error (EnergyTerms N) := do
  let objective ← score energy.registries Scalar.zero
    (energy.objectives.map (Call.evaluatedBy value))
  let constraint ← score energy.registries Scalar.zero
    (energy.constraints.map (Call.evaluatedBy value))
  return ⟨objective,
    constraint * (Scalar.ofFloat energy.constraintWeight * penaltyWeight)⟩

theorem terms_of_fresh
    (pureComputations : energy.registries.computations.ArePure)
    {values : List N}
    (paired : Overrides.ofParts energy.varyingPaths values = .ok overrides)
    (fresh : ∀ call ∈ energy.objectives ++ energy.constraints,
      ∀ argument ∈ call.arguments, ∃ pass : Pass σ N,
        pass.store = energy.store ∧
        (Evaluation.forget
          (energy.ownEvaluator.evalExprAt overrides 1 argument pass)).1 =
          .ok (value argument)) (penaltyWeight : N) :
    (energy.terms penaltyWeight values).Gives
      (energy.scoredTerms penaltyWeight value) := by
  have overridden : (Run.ofExcept
      (Overrides.ofParts energy.varyingPaths values) : Run σ _).Gives
        (.ok overrides) := by
    rw [paired]
    exact .of_remarks (.pure overrides)
  have evaluated := Run.Gives.evaluate
    (evalCalls_of_fresh pureComputations fresh)
  apply overridden.bind_ok
  apply (Run.Gives.of_remarks (.evaluator _ _)).bind_ok
  apply evaluated.bind_ok
  apply (Run.Gives.ofExcept _).bind
  intro objective
  apply (Run.Gives.ofExcept _).bind
  intro constraint
  exact .of_remarks (.pure _)

end Energy

/-- Expressions that evaluate on a store of their own do so on one store in
every order and any number of times, with the same values and one final store.
An energy therefore scores the arguments that its calls have on their own. -/
theorem threading_changes_nothing [Scalar N] :
    (∀ (evaluator : Evaluator σ N) (overrides : Overrides N) (depth : Nat)
      (store : Store N) (exprs : List Expr) (value : Expr → Evaluated N),
      evaluator.computations.ArePure →
      (∀ expr ∈ exprs, ∃ pass : Pass σ N, pass.store = store ∧
        (Evaluation.forget
          (evaluator.evalExprAt overrides depth expr pass)).1 =
          .ok (value expr)) →
      ∃ final, ∀ order : List Expr, (∀ expr, expr ∈ order ↔ expr ∈ exprs) →
        ∀ pass : Pass σ N, pass.store = store →
          let ended := Evaluation.forget
            (order.mapM (evaluator.evalExprAt overrides depth) pass)
          ended.1 = .ok (order.map value) ∧ ended.2.store = final) ∧
    ∀ (energy : Energy σ N) (overrides : Overrides N) (penaltyWeight : N)
      (values : List N) (value : Expr → Evaluated N),
      energy.registries.computations.ArePure →
      Overrides.ofParts energy.varyingPaths values = .ok overrides →
      (∀ call ∈ energy.objectives ++ energy.constraints,
        ∀ argument ∈ call.arguments, ∃ pass : Pass σ N,
          pass.store = energy.store ∧
          (Evaluation.forget
            (energy.ownEvaluator.evalExprAt overrides 1 argument pass)).1 =
            .ok (value argument)) →
      ∀ run, (energy.terms penaltyWeight values).outcome run =
        energy.scoredTerms penaltyWeight value := by
  constructor
  · intro evaluator overrides depth store exprs value pureComputations fresh
    exact Evaluator.mapM_evalExprAt_of_fresh pureComputations depth store exprs
      value fresh
  · intro energy overrides penaltyWeight values value pureComputations paired
      fresh
    exact Energy.terms_of_fresh pureComputations paired fresh penaltyWeight

/-- The score of an integer is the integer. -/
def Score.ofInteger : Score Float
  | [.plain (.int number)] => .ok (.ofInt number.toInt)
  | arguments => .error (.arity "score" 1 arguments.length)

/-- An energy with an objective on the field at the end of a chain and a
constraint on the field at its start. -/
def Energy.chained : Energy Unit Float where
  store := .chained
  objectives := [⟨.objective, "near", [.reference (.field "A" "y")]⟩]
  constraints := [⟨.constraint, "small", [.reference (.field "A" "x")]⟩]
  varyingPaths := []
  registries :=
    ⟨Evaluator.doubling.computations,
      (ScoreTable.empty .objective).register "near" [.any] .ofInteger,
      (ScoreTable.empty .constraint).register "small" [.any] .ofInteger⟩
  constraintWeight := 1
  recursionLimit := 9

def Energy.chainedValue : Expr → Evaluated Float
  | .reference (.field _ "x") => .plain (.int 6)
  | _ => .plain (.int (-6))

theorem Energy.fresh_chained :
    ∀ expr ∈ [Expr.reference (.field "A" "y"), .reference (.field "A" "x")],
      ∃ pass : Pass Unit Float, pass.store = .chained ∧
        (Evaluation.forget
          (Evaluator.doubling.evalExprAt .empty 0 expr pass)).1 =
          .ok (chainedValue expr) := by
  intro expr member
  refine ⟨⟨.chained, (), []⟩, rfl, ?_⟩
  simp only [List.mem_cons, List.not_mem_nil, or_false] at member
  rcases member with rfl | rfl
  · cbv
  · cbv

/-- Both orders of the chain give its two values and one store, and the energy
scores these values. -/
theorem threading_chained :
    Evaluator.doubling.computations.ArePure ∧
    (let x := Expr.reference (.field "A" "x")
      let y := Expr.reference (.field "A" "y")
      let back := Evaluation.forget
        ([y, x].mapM (Evaluator.doubling.evalExprAt .empty 0)
          ⟨.chained, (), []⟩)
      let forth := Evaluation.forget
        ([x, y, x].mapM (Evaluator.doubling.evalExprAt .empty 0)
          ⟨.chained, (), []⟩)
      back.1 = .ok [.plain (.int (-6)), .plain (.int 6)] ∧
      forth.1 = .ok [.plain (.int 6), .plain (.int (-6)), .plain (.int 6)] ∧
      back.2.store = forth.2.store) ∧
    (Energy.chained.terms 2 []).outcome ⟨(), []⟩ = .ok ⟨-6, 12⟩ := by
  refine ⟨Evaluator.arePure_doubling, ?_, ?_⟩
  · intro x y back forth
    obtain ⟨final, same⟩ := threading_changes_nothing.1 Evaluator.doubling
      .empty 0 .chained [y, x] Energy.chainedValue Evaluator.arePure_doubling
      Energy.fresh_chained
    have backSame := same [y, x] (fun _ => Iff.rfl) ⟨.chained, (), []⟩ rfl
    have forthSame := same [x, y, x] (by simp [or_comm]) ⟨.chained, (), []⟩ rfl
    exact ⟨backSame.1, forthSame.1, backSame.2.trans forthSame.2.symm⟩
  · have scored : Energy.chained.scoredTerms 2 Energy.chainedValue =
        .ok ⟨-6, 12⟩ := by
      rfl
    rw [← scored]
    apply threading_changes_nothing.2 Energy.chained .empty 2 []
      Energy.chainedValue Evaluator.arePure_doubling rfl
    intro call member argument argumentMember
    refine ⟨⟨.chained, (), []⟩, rfl, ?_⟩
    simp only [Energy.chained, List.cons_append, List.nil_append, List.mem_cons,
      List.not_mem_nil, or_false] at member
    rcases member with rfl | rfl
    · simp only [List.mem_singleton] at argumentMember
      subst argumentMember
      cbv
    · simp only [List.mem_singleton] at argumentMember
      subst argumentMember
      cbv

end DiagramEnergy
