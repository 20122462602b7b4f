import DiagramEnergy.Arithmetic
import DiagramEnergy.Registry
import DiagramEnergy.Store

/-!
# Evaluation

Expressions are evaluated against one store that a pass threads through all of
its steps.  A symbolic slot is evaluated where it is first needed and then
remembers its value, so later uses read it back.

Every step down spends one unit of a depth budget, and each reference that is
followed from slot to slot spends two.  Cycles therefore end in an error.
-/

namespace DiagramEnergy

/-- A step in the life of a slot during a pass.  A slot is opened when its
expression starts to be evaluated and closed when the result is known, with
the information whether the slot has taken that result over. -/
inductive Mark where
  | opened (path : Path)
  | closed (path : Path) (cached : Bool)
  deriving DecidableEq

/-- What a pass threads along: the store, the state of the registered
computations, and the marks so far with the latest one first. -/
structure Pass (σ N : Type) where
  store : Store N
  world : σ
  trail : List Mark

/-- An action of a pass.  What it has done to the pass stays done when it fails. -/
abbrev Evaluation (σ N : Type) := EStateM Error (Pass σ N)

namespace Evaluation

variable {σ N α : Type}

def ofExcept : Except Error α → Evaluation σ N α
  | .ok result => pure result
  | .error error => throw error

theorem ofExcept_eq_pure (result : α) :
    (ofExcept (.ok result) : Evaluation σ N α) = pure result := rfl

theorem ofExcept_eq_ok_iff {outcome : Except Error α} {pass final : Pass σ N} {result : α} :
    ofExcept outcome pass = .ok result final ↔ outcome = .ok result ∧ pass = final := by
  cases outcome with
  | ok found =>
    change EStateM.Result.ok found pass = .ok result final ↔ _
    simp
  | error error =>
    change EStateM.Result.error error pass = .ok result final ↔ _
    simp

theorem ofExcept_eq_error_iff {outcome : Except Error α} {pass final : Pass σ N}
    {error : Error} :
    ofExcept outcome pass = .error error final ↔ outcome = .error error ∧ pass = final := by
  cases outcome with
  | ok found =>
    change EStateM.Result.ok found pass = .error error final ↔ _
    simp
  | error found =>
    change EStateM.Result.error found pass = .error error final ↔ _
    simp

def mark (step : Mark) : Evaluation σ N Unit :=
  modify fun pass => { pass with trail := step :: pass.trail }

def apply (computation : Computation σ N) (arguments : List (Evaluated N)) :
    Evaluation σ N (Evaluated N) := fun pass =>
  match (computation arguments).run pass.world with
  | (.ok result, world) => .ok result { pass with world }
  | (.error error, world) => .error error { pass with world }

/-- Hands the result of a symbolic slot back to it.  Plain values are cached;
shapes pass through fields, and no property can hold one. -/
def close (result : Evaluated N) (path : Path) : Evaluation σ N Unit :=
  match result with
  | .plain value => do
    mark (.closed path ((← get).store.awaitsValue path))
    modify fun pass => { pass with store := pass.store.cacheValue path value }
  | .shaped shape =>
    if path.isField then mark (.closed path false)
    else throw (.typeMismatch path.text (.shapeInProperty shape.name))

/-- Closes the slots of a chain of references, of which the innermost comes
first and all others refer to the one before them. -/
def settle (result : Evaluated N) (chain : List Path) : Evaluation σ N (Evaluated N) := do
  chain.forM (close result)
  return result

end Evaluation

/-- What the slot at a path asks for. -/
inductive Demand (N : Type) where
  | ready (value : Value N)
  | evaluate (expr : Expr)
  | assemble (kind : String) (properties : List String)

def Demand.ofContent {N : Type} : Content N → Demand N
  | .concrete value => .ready value
  | .symbolic expr => .evaluate expr

def Demand.ofResolved {N : Type} : Resolved N → Demand N
  | .override number => .ready (.float number)
  | .property content => .ofContent content
  | .slot (.scalar content) => .ofContent content
  | .slot (.shape kind properties) => .assemble kind properties.keys

/-- Literals evaluate to themselves, and the forms that remain are refused. -/
def Expr.literal {N : Type} [Scalar N] : Expr → Except Error (Evaluated N)
  | .int value => .ok (.plain (.int value))
  | .float value => .ok (.plain (.float (Scalar.ofFloat value)))
  | .str text => .ok (.plain (.str text))
  | .bool value => .ok (.plain (.bool value))
  | other => .error (.unsupported other.describe)

/-- An evaluated shape is named after its path. -/
def Shape.assembled {N : Type} (path : Path) (kind : String)
    (properties : List (String × Value N)) : Shape N :=
  ⟨kind, (Table.ofList properties).insert "name" (.str path.owner.text)⟩

structure Evaluator (σ N : Type) where
  computations : Computations σ N
  limit : Nat

namespace Evaluator

variable {σ N : Type} [Scalar N] (evaluator : Evaluator σ N) (overrides : Overrides N)

/-- The error of a step for which no budget is left. -/
def exceeded (context : String) : Error := .recursionLimit evaluator.limit context

mutual

/-- Evaluates an expression from left to right; the first error ends it. -/
def evalExpr (budget : Nat) (expr : Expr) : Evaluation σ N (Evaluated N) :=
  match budget with
  | 0 => throw (evaluator.exceeded expr.describe)
  | budget + 1 =>
    match expr with
    | .unary op operand => do
      let result ← evalExpr budget operand
      let value ← .ofExcept (result.toValue "unary operand")
      .plain <$> .ofExcept (op.apply value)
    | .binary op left right => do
      let context := "operand of '" ++ op.symbol ++ "'"
      let leftResult ← evalExpr budget left
      let leftValue ← .ofExcept (leftResult.toValue context)
      let rightResult ← evalExpr budget right
      let rightValue ← .ofExcept (rightResult.toValue context)
      .plain <$> .ofExcept (op.apply leftValue rightValue)
    | .computation name arguments =>
      match evaluator.computations.get? name with
      | none => throw (.unknownComputation name)
      | some computation => do
        let results ← arguments.mapM (evalExpr budget)
        .apply computation results
    | .reference path => do
      let (result, chain) ← follow budget path []
      .settle result chain
    | other => .ofExcept other.literal
  termination_by structural budget

/-- Follows references from a path to where its result comes from.  The chain
collects the symbolic slots on the way, the latest one first. -/
def follow (budget : Nat) (path : Path) (chain : List Path) :
    Evaluation σ N (Evaluated N × List Path) :=
  match budget with
  | 0 => throw (evaluator.exceeded path.text)
  | budget + 1 => do
    let resolved ← .ofExcept ((← get).store.resolve overrides path)
    match Demand.ofResolved resolved with
    | .ready value => return (.plain value, chain)
    | .evaluate (.reference next) =>
      match budget with
      | 0 => throw (evaluator.exceeded (Expr.reference next).describe)
      | budget + 1 => do
        .mark (.opened path)
        follow budget next (path :: chain)
    | .evaluate expr => do
      .mark (.opened path)
      let result ← evalExpr budget expr
      return (result, path :: chain)
    | .assemble kind properties => do
      let values ← properties.mapM fun name => do
        let property := Path.property path.object path.fieldName name
        let (result, inner) ← follow budget property []
        let settled ← Evaluation.settle result inner
        let value ← .ofExcept (settled.toValue property.text)
        return (name, value)
      return (.shaped (.assembled path kind values), chain)
  termination_by structural budget

end

end Evaluator

end DiagramEnergy
