import DiagramEnergy.Proofs.Evaluation.Reach

/-!
# Overrides that restate the store

Overrides with the numbers that the store holds anyway make no difference to
any evaluation: the same results, the same errors and the same caching.
-/

namespace DiagramEnergy

variable {σ N α β : Type}

/-- Overrides that a store agrees with. -/
def Overrides.Restates (overrides : Overrides N) (store : Store N) : Prop :=
  ∀ path number, overrides.get? path = some number →
    store.content? path = some (.concrete (.float number))

namespace Overrides.Restates

variable {overrides : Overrides N} {store : Store N}

theorem demand_empty (restates : overrides.Restates store) (path : Path) :
    store.demand overrides path = store.demand .empty path := by
  have free : (Overrides.empty : Overrides N).get? path = none := rfl
  cases overridden : overrides.get? path with
  | none =>
      rw [Store.demand_of_not_overridden overridden,
        Store.demand_of_not_overridden free]
  | some number =>
      rw [Store.demand_override overridden,
        Store.demand_of_content free (restates path number overridden)]
      rfl

theorem filled {wider : Overrides N} {rule : Path → Value N → Prop}
    {later : Store N} (restates : overrides.Restates store)
    (filled : store.Filled wider rule later) : overrides.Restates later := by
  intro path number overridden
  exact filled.content?_concrete (restates path number overridden)

end Overrides.Restates

/-- Two descents that do the same on all stores that agree with overrides. -/
def Alike (overrides : Overrides N) (first second : Descent σ N α) : Prop :=
  ∀ memory, overrides.Restates memory.store →
    first.run memory = second.run memory ∧
      overrides.Restates (first.run memory).2.store

namespace Alike

variable {overrides : Overrides N} {first second : Descent σ N α}

theorem of_keeps (action : Descent σ N α)
    (kept : Keeps overrides.Restates action) : Alike overrides action action :=
  fun memory restates => ⟨rfl, kept memory restates⟩

theorem pure (result : α) :
    Alike overrides (Pure.pure result : Descent σ N α) (Pure.pure result) :=
  of_keeps _ (Keeps.pure result)

theorem throw (error : Error) :
    Alike overrides (MonadExcept.throw error : Descent σ N α)
      (MonadExcept.throw error) :=
  of_keeps _ (Keeps.throw error)

theorem ofExcept (outcome : Except Error α) :
    Alike overrides (Descent.ofExcept outcome : Descent σ N α)
      (Descent.ofExcept outcome) :=
  of_keeps _ (Keeps.ofExcept outcome)

theorem apply (computation : Computation σ N)
    (arguments : List (Evaluated N)) :
    Alike overrides (Descent.apply computation arguments)
      (Descent.apply computation arguments) :=
  of_keeps _ (Keeps.apply computation arguments)

theorem bind {next onward : α → Descent σ N β}
    (alike : Alike overrides first second)
    (later : ∀ result, Alike overrides (next result) (onward result)) :
    Alike overrides (first >>= next) (second >>= onward) := by
  intro memory restates
  obtain ⟨same, after⟩ := alike memory restates
  rw [Descent.run_bind, Descent.run_bind, ← same]
  cases ran : first.run memory with
  | mk outcome middle =>
      rw [ran] at after
      cases outcome with
      | error error => exact ⟨rfl, after⟩
      | ok result => exact later result middle after

theorem plain {first second : Descent σ N (Evaluated N)} (context : String)
    (alike : Alike overrides first second) :
    Alike overrides (Descent.plain context first)
      (Descent.plain context second) :=
  alike.bind fun _ => ofExcept _

theorem mapM (items : List β) {first second : β → Descent σ N α}
    (each : ∀ item ∈ items, Alike overrides (first item) (second item)) :
    Alike overrides (items.mapM first) (items.mapM second) :=
  related_mapM (fun first second => Alike overrides first second) pure bind
    items each

theorem accept (caching : Bool) (path : Path) (result : Evaluated N) :
    Alike overrides
      (Descent.accept caching path result : Descent σ N (Evaluated N))
      (Descent.accept caching path result) := by
  apply of_keeps
  intro memory restates
  rw [Descent.run_accept]
  cases result with
  | shaped shape => exact restates
  | plain value =>
      cases caching with
      | false => exact restates
      | true =>
          have grown : Store.Grown .empty memory.store
              (memory.store.cacheValue path value) :=
            Store.grown_cacheValue rfl
          exact restates.filled grown

end Alike

namespace Evaluator

variable [Scalar N] {evaluator : Evaluator σ N} {overrides : Overrides N}
  {caching : Bool} {budget : Nat}

theorem alike_descendExpr_succ
    (exprs : ∀ expr, Alike overrides
      (evaluator.descendExpr overrides caching budget expr)
      (evaluator.descendExpr .empty caching budget expr))
    (paths : ∀ path, Alike overrides
      (evaluator.descendPath overrides caching budget path)
      (evaluator.descendPath .empty caching budget path)) (expr : Expr) :
    Alike overrides
      (evaluator.descendExpr overrides caching (budget + 1) expr)
      (evaluator.descendExpr .empty caching (budget + 1) expr) := by
  cases expr using Expr.byForm with
  | leaf expr leaf =>
      rw [descendExpr_leaf leaf, descendExpr_leaf leaf]
      exact Alike.ofExcept _
  | unary op operand =>
      exact ((exprs operand).plain _).bind fun _ => Alike.ofExcept _
  | binary op left right =>
      exact ((exprs left).plain _).bind fun _ =>
        ((exprs right).plain _).bind fun _ => Alike.ofExcept _
  | computation name arguments =>
      simp only [descendExpr]
      cases evaluator.computations.get? name with
      | none => exact Alike.throw _
      | some computation =>
          have alike := Alike.mapM arguments fun argument _ => exprs argument
          exact alike.bind fun _ => Alike.apply _ _
  | reference path => exact paths path

theorem alike_descendPath_succ
    (exprs : ∀ expr, Alike overrides
      (evaluator.descendExpr overrides caching budget expr)
      (evaluator.descendExpr .empty caching budget expr))
    (paths : ∀ path, Alike overrides
      (evaluator.descendPath overrides caching budget path)
      (evaluator.descendPath .empty caching budget path)) (path : Path) :
    Alike overrides
      (evaluator.descendPath overrides caching (budget + 1) path)
      (evaluator.descendPath .empty caching (budget + 1) path) := by
  intro memory restates
  rw [run_descendPath, run_descendPath, ← restates.demand_empty path]
  cases memory.store.demand overrides path with
  | error error => exact Alike.throw error memory restates
  | ok wanted =>
      cases wanted with
      | ready value => exact Alike.pure (Evaluated.plain value) memory restates
      | evaluate expr =>
          exact ((exprs expr).bind fun result =>
            Alike.accept caching path result) memory restates
      | assemble kind names =>
          have alike := Alike.mapM names fun name _ =>
            ((paths (.property path.object path.fieldName name)).plain
              (Path.property path.object path.fieldName name).text).bind
                fun value => Alike.pure (name, value)
          exact (alike.bind fun values => Alike.pure
            (Evaluated.shaped (.assembled path kind values))) memory restates

/-- Overrides that restate the store are invisible. -/
theorem alike_descend (evaluator : Evaluator σ N) (overrides : Overrides N)
    (caching : Bool) (budget : Nat) :
    (∀ expr, Alike overrides
      (evaluator.descendExpr overrides caching budget expr)
      (evaluator.descendExpr .empty caching budget expr)) ∧
    (∀ path, Alike overrides
      (evaluator.descendPath overrides caching budget path)
      (evaluator.descendPath .empty caching budget path)) := by
  induction budget with
  | zero => exact ⟨fun _ => Alike.throw _, fun _ => Alike.throw _⟩
  | succ budget induction =>
      obtain ⟨exprs, paths⟩ := induction
      constructor
      · exact alike_descendExpr_succ exprs paths
      · exact alike_descendPath_succ exprs paths

end Evaluator

end DiagramEnergy
