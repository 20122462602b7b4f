import DiagramEnergy.Evaluator.Entry
import DiagramEnergy.Proofs.Store.Demand

/-!
# Evaluation by plain recursion

The evaluator follows references in a loop and closes all slots of a chain at
its end.  A descent does the same by recursion alone: a slot that refers to
another one is evaluated like any other expression and accepts its result on
the way back.  Without caching, a descent is evaluation by name.
-/

namespace DiagramEnergy

namespace Expr

/-- Whether evaluation ends at an expression, with a literal or an error. -/
def isLeaf : Expr → Bool
  | .unary _ _ => false
  | .binary _ _ _ => false
  | .computation _ _ => false
  | .reference _ => false
  | _ => true

/-- The cases that evaluation distinguishes. -/
@[elab_as_elim]
theorem byForm {motive : Expr → Prop}
    (leaf : ∀ expr, expr.isLeaf = true → motive expr)
    (unary : ∀ op operand, motive (.unary op operand))
    (binary : ∀ op left right, motive (.binary op left right))
    (computation : ∀ name arguments, motive (.computation name arguments))
    (reference : ∀ path, motive (.reference path)) (expr : Expr) :
    motive expr := by
  cases expr with
  | unary op operand => exact unary op operand
  | binary op left right => exact binary op left right
  | computation name arguments => exact computation name arguments
  | reference path => exact reference path
  | _ => exact leaf _ rfl

end Expr

/-- A relation between actions that respects results and sequencing respects the
traversal of a list. -/
theorem related_mapM {left right : Type → Type} [Monad left]
    [LawfulMonad left] [Monad right] [LawfulMonad right]
    (Related : {γ : Type} → left γ → right γ → Prop)
    (pure : ∀ {γ : Type} (result : γ),
      Related (Pure.pure result) (Pure.pure result))
    (bind : ∀ {γ δ : Type} {first : left γ} {second : right γ}
      {next : γ → left δ} {onward : γ → right δ}, Related first second →
      (∀ result, Related (next result) (onward result)) →
      Related (first >>= next) (second >>= onward))
    {α β : Type} (items : List β) {first : β → left α} {second : β → right α}
    (each : ∀ item ∈ items, Related (first item) (second item)) :
    Related (items.mapM first) (items.mapM second) := by
  induction items with
  | nil =>
      rw [List.mapM_nil, List.mapM_nil]
      exact pure []
  | cons item items induction =>
      rw [List.mapM_cons, List.mapM_cons]
      have rest := induction fun other member => each other (by simp [member])
      apply bind (each item (by simp))
      intro result
      apply bind rest
      intro results
      exact pure (result :: results)

/-- What an evaluation threads along when nobody looks at its marks. -/
structure Memory (σ N : Type) where
  store : Store N
  world : σ

def Pass.memory {σ N : Type} (pass : Pass σ N) : Memory σ N :=
  ⟨pass.store, pass.world⟩

abbrev Descent (σ N : Type) := ExceptT Error (StateM (Memory σ N))

namespace Descent

variable {σ N α β : Type}

def run (action : Descent σ N α) (memory : Memory σ N) :
    Except Error α × Memory σ N :=
  StateT.run (ExceptT.run action) memory

def ofExcept : Except Error α → Descent σ N α
  | .ok result => pure result
  | .error error => throw error

def apply (computation : Computation σ N) (arguments : List (Evaluated N)) :
    Descent σ N (Evaluated N) :=
  ExceptT.mk fun memory =>
    let answer := (computation arguments).run memory.world
    (answer.1, { memory with world := answer.2 })

/-- Hands the result of the slot at a path back to it.  Plain values are cached
if that is wanted; shapes pass through fields only. -/
def accept (caching : Bool) (path : Path) (result : Evaluated N) :
    Descent σ N (Evaluated N) :=
  match result with
  | .plain value => do
    if caching then
      modify fun memory =>
        { memory with store := memory.store.cacheValue path value }
    return result
  | .shaped shape =>
    if path.isField then return result
    else throw (.typeMismatch path.text (.shapeInProperty shape.name))

/-- Refuses a shape where a plain value has to stand. -/
def plain (context : String) (action : Descent σ N (Evaluated N)) :
    Descent σ N (Value N) := do
  let result ← action
  ofExcept (result.toValue context)

theorem run_bind (action : Descent σ N α) (next : α → Descent σ N β)
    (memory : Memory σ N) :
    (action >>= next).run memory =
      match action.run memory with
      | (.ok result, later) => (next result).run later
      | (.error error, later) => (.error error, later) := by
  simp only [run, ExceptT.run_bind, StateT.run_bind]
  cases StateT.run (ExceptT.run action) memory with
  | mk outcome later => cases outcome <;> rfl

theorem run_get_bind (next : Memory σ N → Descent σ N α)
    (memory : Memory σ N) :
    (get >>= next : Descent σ N α).run memory = (next memory).run memory := rfl

@[simp] theorem run_ofExcept (outcome : Except Error α) (memory : Memory σ N) :
    (ofExcept outcome : Descent σ N α).run memory = (outcome, memory) := by
  cases outcome <;> rfl

end Descent

namespace Evaluator

variable {σ N : Type} [Scalar N] (evaluator : Evaluator σ N)
  (overrides : Overrides N) (caching : Bool)

mutual

def descendExpr (budget : Nat) (expr : Expr) : Descent σ N (Evaluated N) :=
  match budget with
  | 0 => throw (evaluator.exceeded expr.describe)
  | budget + 1 =>
    match expr with
    | .unary op operand => do
      let value ← .plain "unary operand" (descendExpr budget operand)
      .ofExcept (Evaluated.plain <$> op.apply value)
    | .binary op left right => do
      let context := "operand of '" ++ op.symbol ++ "'"
      let leftValue ← .plain context (descendExpr budget left)
      let rightValue ← .plain context (descendExpr budget right)
      .ofExcept (Evaluated.plain <$> op.apply leftValue rightValue)
    | .computation name arguments =>
      match evaluator.computations.get? name with
      | none => throw (.unknownComputation name)
      | some computation => do
        let results ← arguments.mapM (descendExpr budget)
        .apply computation results
    | .reference path => descendPath budget path
    | other => .ofExcept other.literal
  termination_by structural budget

def descendPath (budget : Nat) (path : Path) : Descent σ N (Evaluated N) :=
  match budget with
  | 0 => throw (evaluator.exceeded path.text)
  | budget + 1 => do
    match ← .ofExcept ((← get).store.demand overrides path) with
    | .ready value => return .plain value
    | .evaluate expr => do
      let result ← descendExpr budget expr
      .accept caching path result
    | .assemble kind names => do
      let values ← names.mapM fun name => do
        let property := Path.property path.object path.fieldName name
        let value ← .plain property.text (descendPath budget property)
        return (name, value)
      return .shaped (.assembled path kind values)
  termination_by structural budget

end

/-- A property of the shape at a path, with its name. -/
def descendProperty (budget : Nat) (path : Path) (name : String) :
    Descent σ N (String × Value N) := do
  let property := Path.property path.object path.fieldName name
  let value ← .plain property.text
    (evaluator.descendPath overrides caching budget property)
  return (name, value)

/-- How a descent meets what a path asks for. -/
def meet (budget : Nat) (path : Path) :
    Except Error (Demand N) → Descent σ N (Evaluated N)
  | .error error => throw error
  | .ok (.ready value) => return .plain value
  | .ok (.evaluate expr) => do
    let result ← evaluator.descendExpr overrides caching budget expr
    .accept caching path result
  | .ok (.assemble kind names) => do
    let values ← names.mapM
      (evaluator.descendProperty overrides caching budget path)
    return .shaped (.assembled path kind values)

variable {evaluator overrides caching}

theorem run_descendPath (budget : Nat) (path : Path) (memory : Memory σ N) :
    (evaluator.descendPath overrides caching (budget + 1) path).run memory =
      (evaluator.meet overrides caching budget path
        (memory.store.demand overrides path)).run memory := by
  simp only [descendPath]
  rw [Descent.run_get_bind, Descent.run_bind, Descent.run_ofExcept]
  cases memory.store.demand overrides path with
  | error error => rfl
  | ok asked => cases asked <;> rfl

theorem descendExpr_reference (budget : Nat) (path : Path) :
    evaluator.descendExpr overrides caching (budget + 1) (.reference path) =
      evaluator.descendPath overrides caching budget path := rfl

theorem evalExpr_leaf {expr : Expr} (leaf : expr.isLeaf = true)
    (budget : Nat) :
    evaluator.evalExpr overrides (budget + 1) expr =
      .ofExcept expr.literal := by
  cases expr with
  | unary op operand => cases leaf
  | binary op left right => cases leaf
  | computation name arguments => cases leaf
  | reference path => cases leaf
  | _ => rfl

theorem descendExpr_leaf {expr : Expr} (leaf : expr.isLeaf = true)
    (budget : Nat) :
    evaluator.descendExpr overrides caching (budget + 1) expr =
      .ofExcept expr.literal := by
  cases expr with
  | unary op operand => cases leaf
  | binary op left right => cases leaf
  | computation name arguments => cases leaf
  | reference path => cases leaf
  | _ => rfl

end Evaluator

end DiagramEnergy
