import Mathlib
import DiagramEnergy.Proofs.Evaluation.Agreement
import DiagramEnergy.Proofs.Evaluation.Loop

/-!
# Caching is transparent

With pure computations, an evaluation gives what evaluation by name gives on
the store that it starts from, caches nothing else, and succeeds wherever it
would succeed without caching.  The budget is the only thing that caching can
make a difference to, and only for the better.
-/

namespace DiagramEnergy

variable {σ N : Type}

namespace Evaluator

open ByName

variable [Scalar N] {evaluator : Evaluator σ N} {overrides : Overrides N}

/-- An evaluation has the outcome of evaluation by name, unless its budget runs
out, and it succeeds if it does so without caching.  It fills symbolic slots
without overrides with what they evaluate to by name, also when it fails. -/
theorem evalExprAt_transparent
    (pureComputations : evaluator.computations.ArePure) (depth : Nat)
    (expr : Expr) (pass : Pass σ N) :
    let ended :=
      Evaluation.forget (evaluator.evalExprAt overrides depth expr pass)
    let uncached := (evaluator.descendExpr overrides false
      (evaluator.limit - depth) expr).run pass.memory
    (∀ result, ended.1 = .ok result →
      Evaluates evaluator.computations pass.store overrides expr
        (.ok result)) ∧
    (∀ error, ended.1 = .error error → error.isLimit = false →
      Evaluates evaluator.computations pass.store overrides expr
        (.error error)) ∧
    (∀ result, uncached.1 = .ok result → ended.1 = .ok result) ∧
    ended.2.store.outline = pass.store.outline ∧
    ∀ path, ended.2.store.content? path = pass.store.content? path ∨
      ∃ slot value, pass.store.content? path = some (.symbolic slot) ∧
        overrides.get? path = none ∧
        Evaluates evaluator.computations pass.store overrides
          (.reference path) (.ok (.plain value)) ∧
        ended.2.store.content? path = some (.concrete value) := by
  intro ended uncached
  have same : ended = (evaluator.descendExpr overrides true
      (evaluator.limit - depth) expr).run pass.memory :=
    forget_evalExprAt depth expr pass
  obtain ⟨remembers, answered⟩ := (sound_descend pureComputations overrides
    pass.store true (evaluator.limit - depth)).1 expr pass.memory
    (.refl pass.store)
  rw [← same] at remembers answered
  refine ⟨?_, ?_, ?_, remembers.outline, ?_⟩
  · intro result succeeded
    rw [succeeded] at answered
    exact answered.ok
  · intro error failed unlimited
    rw [failed] at answered
    rcases answered with spent | evaluation
    · have limited : error.isLimit = true := spent
      rw [unlimited] at limited
      cases limited
    · exact evaluation
  · intro result succeeded
    have follows := (follows_descend pureComputations overrides pass.store
      false (evaluator.limit - depth)).1 expr
    rw [same]
    exact (follows pass.memory pass.memory (warmer_start warm_start) result
      succeeded).1
  · intro path
    rcases remembers.contents path with
      unchanged | ⟨slot, value, asked, denotes, found⟩
    · exact .inl unchanged
    · obtain ⟨free, symbolic⟩ := Store.demand_evaluate_iff.1 asked
      exact .inr ⟨slot, value, symbolic, free, denotes, found⟩

end Evaluator

/-- An evaluator with one computation, which doubles an integer. -/
def Evaluator.doubling : Evaluator Unit Float :=
  ⟨Table.empty.insert "double" (.ofFunction fun arguments =>
    match arguments with
    | [.plain (.int number)] =>
        (.plain ∘ .int) <$> Integer.operate .add number number
    | _ => .error (.arity "double" 1 arguments.length)), 9⟩

theorem Evaluator.arePure_doubling : doubling.computations.ArePure :=
  Computations.arePure_empty.insert (Computation.isPure_ofFunction _) "double"

/-- An object with a computed field and a field that refers to it. -/
def Store.chained : Store Float :=
  ((Store.empty.declare "A").bind "A" "x"
    (.scalar (.symbolic (.computation "double" [.int 3])))).bind "A" "y"
    (.scalar (.symbolic (.unary .minus (.reference (.field "A" "x")))))

/-- The evaluation of the field at the end of the chain. -/
def Evaluator.evaluatedChain : Except Error (Evaluated Float) × Memory Unit Float :=
  Evaluation.forget (doubling.evalExprAt .empty 0
    (.reference (.field "A" "y")) ⟨.chained, (), []⟩)

/-- The end of the chain has the value that it has by name, and so has its start
after the evaluation. -/
theorem Evaluator.evaluates_chained :
    let x : Path := .field "A" "x"
    let y : Path := .field "A" "y"
    doubling.computations.ArePure ∧
      evaluatedChain.1 = .ok (.plain (.int (-6))) ∧
      ByName.Evaluates doubling.computations .chained .empty
        (.reference y) (.ok (.plain (.int (-6)))) ∧
      evaluatedChain.2.store.content? x = some (.concrete (.int 6)) ∧
      ByName.Evaluates doubling.computations .chained .empty
        (.reference x) (.ok (.plain (.int 6))) := by
  have succeeded : evaluatedChain.1 = .ok (.plain (.int (-6))) := by cbv
  have cached : evaluatedChain.2.store.content? (.field "A" "x") =
      some (.concrete (.int 6)) := by cbv
  obtain ⟨evaluates, -, -, -, contents⟩ := evalExprAt_transparent
    arePure_doubling 0 (.reference (.field "A" "y")) ⟨.chained, (), []⟩
  intro x y
  refine ⟨arePure_doubling, succeeded, evaluates _ succeeded, cached, ?_⟩
  rcases contents x with same | ⟨expr, value, -, -, denotes, found⟩
  · cases cached.symm.trans same
  · cases cached.symm.trans found
    exact denotes

end DiagramEnergy
