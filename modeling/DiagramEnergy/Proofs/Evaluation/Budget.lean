import Mathlib
import DiagramEnergy.Proofs.Evaluation.Loop
import DiagramEnergy.Proofs.Evaluation.Soundness

/-!
# What the budget decides

Two evaluators that differ in their limits only are followed side by side.  They
do the same, step by step, until the one with less budget has none left.  Main
statement: the limit decides when an evaluation gives up, and never what it
computes; and only the distance from the depth to the limit counts, up to the
number that the limit error names.
-/

namespace DiagramEnergy

variable {σ N α β : Type}

/-- The second descent does what the first one does, unless the first one ends at
its limit.  If both have the same budget, the second one then ends at its own
limit, in the same place. -/
def Outlasts (sameBudget : Prop) (lower higher : Nat)
    (first second : Descent σ N α) : Prop :=
  ∀ memory, second.run memory = first.run memory ∨
    ∃ context, (first.run memory).1 = .error (.recursionLimit lower context) ∧
      (sameBudget → second.run memory =
        (.error (.recursionLimit higher context), (first.run memory).2))

namespace Outlasts

variable {sameBudget : Prop} {lower higher : Nat}
  {first second : Descent σ N α}

theorem refl (action : Descent σ N α) :
    Outlasts sameBudget lower higher action action :=
  fun _ => .inl rfl

theorem exceeded {context : String}
    (same : sameBudget → second = throw (.recursionLimit higher context)) :
    Outlasts sameBudget lower higher
      (throw (.recursionLimit lower context) : Descent σ N α) second := by
  intro memory
  refine .inr ⟨context, rfl, ?_⟩
  intro holds
  rw [same holds]
  rfl

theorem bind {next onward : α → Descent σ N β}
    (outlasts : Outlasts sameBudget lower higher first second)
    (later : ∀ result,
      Outlasts sameBudget lower higher (next result) (onward result)) :
    Outlasts sameBudget lower higher (first >>= next)
      (second >>= onward) := by
  intro memory
  rw [Descent.run_bind, Descent.run_bind]
  rcases outlasts memory with same | ⟨context, failed, ended⟩
  · rw [same]
    cases first.run memory with
    | mk outcome middle =>
        cases outcome with
        | error error => exact .inl rfl
        | ok result => exact later result middle
  · refine .inr ⟨context, ?_⟩
    cases ran : first.run memory with
    | mk outcome middle =>
        rw [ran] at failed ended
        cases failed
        refine ⟨rfl, ?_⟩
        intro holds
        rw [ended holds]

theorem plain {first second : Descent σ N (Evaluated N)} (context : String)
    (outlasts : Outlasts sameBudget lower higher first second) :
    Outlasts sameBudget lower higher (Descent.plain context first)
      (Descent.plain context second) :=
  outlasts.bind fun _ => refl _

theorem mapM (items : List β) {first second : β → Descent σ N α}
    (each : ∀ item ∈ items,
      Outlasts sameBudget lower higher (first item) (second item)) :
    Outlasts sameBudget lower higher (items.mapM first)
      (items.mapM second) :=
  related_mapM (fun first second =>
    Outlasts sameBudget lower higher first second)
    (fun result => refl (Pure.pure result)) bind items each

end Outlasts

namespace Evaluator

variable [Scalar N] {computations : Computations σ N}
  {overrides : Overrides N} {caching : Bool} {sameBudget : Prop}
  {lower higher budget larger : Nat}

theorem outlasts_descendExpr_succ
    (exprs : ∀ expr, Outlasts sameBudget lower higher
      ((mk computations lower).descendExpr overrides caching budget expr)
      ((mk computations higher).descendExpr overrides caching larger expr))
    (paths : ∀ path, Outlasts sameBudget lower higher
      ((mk computations lower).descendPath overrides caching budget path)
      ((mk computations higher).descendPath overrides caching larger path))
    (expr : Expr) :
    Outlasts sameBudget lower higher
      ((mk computations lower).descendExpr overrides caching (budget + 1) expr)
      ((mk computations higher).descendExpr overrides caching (larger + 1)
        expr) := by
  cases expr using Expr.byForm with
  | leaf expr leaf =>
      rw [descendExpr_leaf leaf, descendExpr_leaf leaf]
      exact Outlasts.refl _
  | unary op operand =>
      exact ((exprs operand).plain _).bind fun _ => Outlasts.refl _
  | binary op left right =>
      exact ((exprs left).plain _).bind fun _ =>
        ((exprs right).plain _).bind fun _ => Outlasts.refl _
  | computation name arguments =>
      simp only [descendExpr]
      cases computations.get? name with
      | none => exact Outlasts.refl _
      | some computation =>
          have results := Outlasts.mapM arguments
            fun argument _ => exprs argument
          exact results.bind fun _ => Outlasts.refl _
  | reference path => exact paths path

theorem outlasts_descendPath_succ
    (exprs : ∀ expr, Outlasts sameBudget lower higher
      ((mk computations lower).descendExpr overrides caching budget expr)
      ((mk computations higher).descendExpr overrides caching larger expr))
    (paths : ∀ path, Outlasts sameBudget lower higher
      ((mk computations lower).descendPath overrides caching budget path)
      ((mk computations higher).descendPath overrides caching larger path))
    (path : Path) :
    Outlasts sameBudget lower higher
      ((mk computations lower).descendPath overrides caching (budget + 1) path)
      ((mk computations higher).descendPath overrides caching (larger + 1)
        path) := by
  intro memory
  rw [run_descendPath, run_descendPath]
  cases memory.store.demand overrides path with
  | error error => exact Outlasts.refl _ memory
  | ok wanted =>
      cases wanted with
      | ready value => exact Outlasts.refl _ memory
      | evaluate expr =>
          exact ((exprs expr).bind fun _ => Outlasts.refl _) memory
      | assemble kind names =>
          have properties := Outlasts.mapM names fun name _ =>
            ((paths (.property path.object path.fieldName name)).plain
              (Path.property path.object path.fieldName name).text).bind
                fun value => Outlasts.refl (Pure.pure (name, value))
          exact (properties.bind fun _ => Outlasts.refl _) memory

variable (computations overrides caching lower higher) in
/-- A descent goes on as it would with less budget, and with equal budgets it
ends at the limit where the other one does. -/
theorem outlasts_descend (more : budget ≤ larger)
    (equal : sameBudget → budget = larger) :
    (∀ expr, Outlasts sameBudget lower higher
      ((mk computations lower).descendExpr overrides caching budget expr)
      ((mk computations higher).descendExpr overrides caching larger expr)) ∧
    (∀ path, Outlasts sameBudget lower higher
      ((mk computations lower).descendPath overrides caching budget path)
      ((mk computations higher).descendPath overrides caching larger path)) := by
  induction budget generalizing larger with
  | zero =>
      constructor
      · intro expr
        apply Outlasts.exceeded
        intro holds
        rw [← equal holds]
        rfl
      · intro path
        apply Outlasts.exceeded
        intro holds
        rw [← equal holds]
        rfl
  | succ budget induction =>
      obtain ⟨rest, rfl⟩ := Nat.exists_eq_add_of_le' more
      obtain ⟨exprs, paths⟩ := @induction (rest + budget) (by omega)
        fun holds => by have := equal holds; omega
      constructor
      · exact outlasts_descendExpr_succ exprs paths
      · exact outlasts_descendPath_succ exprs paths

end Evaluator

/-- An evaluation, given its limit and its depth, that the limit may cut short
and on which it has no other influence. -/
structure LimitOnlyStops (ran : Nat → Nat → Except Error α × Memory σ N) :
    Prop where
  /-- What ends before its limit ends in the same way under a higher one. -/
  raised : ∀ {lower higher depth : Nat}, lower ≤ higher →
    (∀ error, (ran lower depth).1 = .error error → error.isLimit = false) →
    ran higher depth = ran lower depth
  /-- A limit and a depth that grow together change the number in the limit
  error and nothing else. -/
  shifted : ∀ limit depth shift,
    ran (limit + shift) (depth + shift) = ran limit depth ∨
      ∃ context,
        (ran limit depth).1 = .error (.recursionLimit limit context) ∧
        ran (limit + shift) (depth + shift) =
          (.error (.recursionLimit (limit + shift) context),
            (ran limit depth).2)

theorem LimitOnlyStops.of_outlasts (action : Nat → Nat → Descent σ N α)
    (outlasts : ∀ (lower higher budget larger : Nat) (sameBudget : Prop),
      budget ≤ larger → (sameBudget → budget = larger) →
      Outlasts sameBudget lower higher (action lower budget)
        (action higher larger)) (memory : Memory σ N) :
    LimitOnlyStops fun limit depth =>
      (action limit (limit - depth)).run memory := by
  constructor
  · intro lower higher depth raised unlimited
    have follows := outlasts lower higher (lower - depth) (higher - depth)
      False (by omega) False.elim memory
    rcases follows with same | ⟨context, failed, -⟩
    · exact same
    · have limited := unlimited _ failed
      cases limited
  · intro limit depth shift
    have follows := outlasts limit (limit + shift) (limit - depth)
      (limit + shift - (depth + shift)) True (by omega) (fun _ => by omega)
      memory
    rcases follows with same | ⟨context, failed, ended⟩
    · exact .inl same
    · exact .inr ⟨context, failed, ended trivial⟩

namespace Evaluator

variable [Scalar N] (computations : Computations σ N)
  (overrides : Overrides N)

/-- The limit decides when evaluation gives up on an expression or a path, and
never what it makes of it or leaves in the store. -/
theorem limit_only_stops (pass : Pass σ N) :
    (∀ expr, LimitOnlyStops fun limit depth => Evaluation.forget
      ((mk computations limit).evalExprAt overrides depth expr pass)) ∧
    (∀ path, LimitOnlyStops fun limit depth => Evaluation.forget
      ((mk computations limit).evalPathAt overrides depth path pass)) := by
  simp only [forget_evalExprAt, forget_evalPathAt]
  constructor
  · intro expr
    apply LimitOnlyStops.of_outlasts fun limit budget =>
      (mk computations limit).descendExpr overrides true budget expr
    intro lower higher budget larger sameBudget more equal
    exact (outlasts_descend computations overrides true lower higher more
      equal).1 expr
  · intro path
    apply LimitOnlyStops.of_outlasts fun limit budget =>
      (mk computations limit).descendPath overrides true budget path
    intro lower higher budget larger sameBudget more equal
    exact (outlasts_descend computations overrides true lower higher more
      equal).2 path

/-- Five units are enough for two references, and more of them change nothing. -/
theorem limit_only_stops_linked :
    let pass : Pass Unit Float :=
      ⟨.linked (.scalar (.concrete (.int 7))), (), []⟩
    let ended (limit : Nat) := Evaluation.forget
      ((mk .empty limit).evalPathAt .empty 0 (.field "A" "start") pass)
    (ended 5).1 = .ok (.plain (.int 7)) ∧ ended 9 = ended 5 := by
  intro pass ended
  have resolved : (ended 5).1 = .ok (.plain (.int 7)) := by
    simp only [ended, pass]
    cbv
  refine ⟨resolved, ?_⟩
  apply ((limit_only_stops .empty .empty pass).2 (.field "A" "start")).raised
  · decide
  · intro error failed
    cases resolved.symm.trans failed

end Evaluator

end DiagramEnergy
