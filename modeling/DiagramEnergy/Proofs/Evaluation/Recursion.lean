import Mathlib
import DiagramEnergy.Proofs.Evaluation.Loop

/-!
# The loop and the recursion that it stands for

A slot that refers to another one could be evaluated like every other slot: its
expression one level further down, and the slot accepting the result on the way
back.  Evaluation by depth is recursive in this sense if it solves the equations
of `Recursion`.  Main statement: the loop that follows references agrees with
every solution, in its results, its errors and all that it leaves behind.
-/

namespace DiagramEnergy

variable {σ N : Type}

namespace Evaluator

variable [Scalar N] (evaluator : Evaluator σ N) (overrides : Overrides N)

/-- An expression is evaluated from what lies one level further down. -/
def exprStep (onExpr : Expr → Descent σ N (Evaluated N))
    (onPath : Path → Descent σ N (Evaluated N)) :
    Expr → Descent σ N (Evaluated N)
  | .unary op operand => do
    let value ← .plain "unary operand" (onExpr operand)
    .ofExcept (Evaluated.plain <$> op.apply value)
  | .binary op left right => do
    let context := "operand of '" ++ op.symbol ++ "'"
    let leftValue ← .plain context (onExpr left)
    let rightValue ← .plain context (onExpr right)
    .ofExcept (Evaluated.plain <$> op.apply leftValue rightValue)
  | .computation name arguments =>
    match evaluator.computations.get? name with
    | none => throw (.unknownComputation name)
    | some computation => do
      let results ← arguments.mapM onExpr
      .apply computation results
  | .reference path => onPath path
  | other => .ofExcept other.literal

omit [Scalar N] in
/-- A symbolic slot is evaluated whatever its expression is, a reference or not,
and accepts the result. -/
def pathStep (onExpr : Expr → Descent σ N (Evaluated N))
    (onPath : Path → Descent σ N (Evaluated N)) (path : Path) :
    Descent σ N (Evaluated N) := do
  match ← .ofExcept ((← get).store.demand overrides path) with
  | .ready value => return .plain value
  | .evaluate expr => do
    let result ← onExpr expr
    .accept true path result
  | .assemble kind names => do
    let values ← names.mapM fun name => do
      let property := Path.property path.object path.fieldName name
      let value ← .plain property.text (onPath property)
      return (name, value)
    return .shaped (.assembled path kind values)

/-- Evaluation by recursion alone, from each depth on. -/
structure Recursion where
  exprAt : Nat → Expr → Descent σ N (Evaluated N)
  pathAt : Nat → Path → Descent σ N (Evaluated N)
  exprAt_eq : ∀ depth expr, exprAt depth expr =
    if depth < evaluator.limit then
      evaluator.exprStep (exprAt (depth + 1)) (pathAt (depth + 1)) expr
    else throw (evaluator.exceeded expr.describe)
  pathAt_eq : ∀ depth path, pathAt depth path =
    if depth < evaluator.limit then
      pathStep overrides (exprAt (depth + 1)) (pathAt (depth + 1)) path
    else throw (evaluator.exceeded path.text)

variable {evaluator overrides}

theorem descendExpr_succ (budget : Nat) (expr : Expr) :
    evaluator.descendExpr overrides true (budget + 1) expr =
      evaluator.exprStep (evaluator.descendExpr overrides true budget)
        (evaluator.descendPath overrides true budget) expr := by
  cases expr <;> rfl

theorem descendPath_succ (budget : Nat) (path : Path) :
    evaluator.descendPath overrides true (budget + 1) path =
      pathStep overrides (evaluator.descendExpr overrides true budget)
        (evaluator.descendPath overrides true budget) path := rfl

namespace Recursion

variable (evaluator overrides) in
/-- A descent with the budget that is left at a depth. -/
def descent : evaluator.Recursion overrides where
  exprAt depth :=
    evaluator.descendExpr overrides true (evaluator.limit - depth)
  pathAt depth :=
    evaluator.descendPath overrides true (evaluator.limit - depth)
  exprAt_eq depth expr := by
    split
    case isTrue within =>
      rw [show evaluator.limit - depth = (evaluator.limit - (depth + 1)) + 1 by
        omega]
      exact descendExpr_succ _ expr
    case isFalse spent =>
      rw [show evaluator.limit - depth = 0 by omega]
      rfl
  pathAt_eq depth path := by
    split
    case isTrue within =>
      rw [show evaluator.limit - depth = (evaluator.limit - (depth + 1)) + 1 by
        omega]
      exact descendPath_succ _ path
    case isFalse spent =>
      rw [show evaluator.limit - depth = 0 by omega]
      rfl

/-- The equations leave no choice. -/
theorem eq_descent (recursion : evaluator.Recursion overrides)
    {budget depth : Nat} (left : evaluator.limit - depth = budget) :
    recursion.exprAt depth = evaluator.descendExpr overrides true budget ∧
      recursion.pathAt depth =
        evaluator.descendPath overrides true budget := by
  induction budget generalizing depth with
  | zero =>
      have spent : ¬ depth < evaluator.limit := by omega
      constructor
      · funext expr
        rw [recursion.exprAt_eq, if_neg spent]
        rfl
      · funext path
        rw [recursion.pathAt_eq, if_neg spent]
        rfl
  | succ budget induction =>
      have within : depth < evaluator.limit := by omega
      obtain ⟨exprs, paths⟩ := @induction (depth + 1) (by omega)
      constructor
      · funext expr
        rw [recursion.exprAt_eq, if_pos within, exprs, paths, descendExpr_succ]
      · funext path
        rw [recursion.pathAt_eq, if_pos within, exprs, paths, descendPath_succ]

end Recursion

/-- Following references in a loop comes to the same as following them by
recursion. -/
theorem evalPathAt_eq_pathAt (recursion : evaluator.Recursion overrides)
    (depth : Nat) (path : Path) (pass : Pass σ N) :
    Evaluation.forget (evaluator.evalPathAt overrides depth path pass) =
      (recursion.pathAt depth path).run pass.memory := by
  rw [forget_evalPathAt, (recursion.eq_descent rfl).2]

/-- Both refuse a shape at the end of the chain, where it comes to a property. -/
theorem evalPathAt_eq_pathAt_linked :
    let store := Store.linked (.shape "Disc" .empty)
    ((Recursion.descent ⟨.empty, 5⟩ .empty).pathAt 0
      (.field "A" "start")).run ⟨store, ()⟩ =
      (.error (.typeMismatch "A.box.link" (.shapeInProperty "A.target")),
        ⟨store, ()⟩) := by
  intro store
  exact (evalPathAt_eq_pathAt (Recursion.descent ⟨.empty, 5⟩ .empty) 0
    (.field "A" "start") ⟨store, (), []⟩).symm.trans (by cbv)

end Evaluator

end DiagramEnergy
