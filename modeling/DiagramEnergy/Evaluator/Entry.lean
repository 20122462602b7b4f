import DiagramEnergy.Evaluator

/-!
# Evaluating expressions, shapes and calls

The ways into the evaluator.  A depth says how much of the budget is spent
before evaluation starts.
-/

namespace DiagramEnergy

/-- A call with its arguments evaluated. -/
structure EvaluatedCall (N : Type) where
  role : Role
  name : String
  arguments : List (Evaluated N)
  deriving DecidableEq

namespace Evaluator

/-- No evaluator has a deeper budget. -/
def maxLimit : Nat := 1024

variable {σ N : Type}

def capped (computations : Computations σ N) (limit : Nat) : Evaluator σ N :=
  ⟨computations, min limit maxLimit⟩

variable [Scalar N] (evaluator : Evaluator σ N) (overrides : Overrides N)

def evalExprAt (depth : Nat) (expr : Expr) : Evaluation σ N (Evaluated N) :=
  evaluator.evalExpr overrides (evaluator.limit - depth) expr

def evalPathAt (depth : Nat) (path : Path) : Evaluation σ N (Evaluated N) := do
  let (result, chain) ← evaluator.follow overrides (evaluator.limit - depth) path []
  .settle result chain

def evalShape (path : Path) : Evaluation σ N (Shape N) := do
  match ← evaluator.evalPathAt overrides 0 path with
  | .shaped shape => return shape
  | .plain value => throw (.typeMismatch path.text (.expected "shape" value.label))

/-- Evaluates the shapes at some paths, in order and on one store. -/
def evalShapes (paths : List Path) : Evaluation σ N (List (Shape N)) :=
  paths.mapM (evaluator.evalShape overrides)

/-- Evaluates the arguments of a call, which lie one level below it. -/
def evalCall (call : Call) : Evaluation σ N (EvaluatedCall N) := do
  let arguments ← call.arguments.mapM (evaluator.evalExprAt overrides 1)
  return ⟨call.role, call.name, arguments⟩

end Evaluator

end DiagramEnergy
