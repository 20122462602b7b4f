import DiagramEnergy.Proofs.Evaluation.ByName

/-!
# Descents without caching

With every budget that is large enough, a descent without caching has the
outcome of evaluation by name and leaves its memory alone.
-/

namespace DiagramEnergy

variable {σ N α β : Type}

/-- Every budget from some point on gives one outcome and changes nothing. -/
def Settles (action : Nat → Descent σ N α) (memory : Memory σ N)
    (outcome : Except Error α) : Prop :=
  ∃ least, ∀ budget, least ≤ budget →
    (action budget).run memory = (outcome, memory)

namespace Settles

variable {memory : Memory σ N}

theorem always {action : Nat → Descent σ N α} {outcome : Except Error α}
    (every : ∀ budget, (action budget).run memory = (outcome, memory)) :
    Settles action memory outcome :=
  ⟨0, fun budget _ => every budget⟩

theorem succ {action : Nat → Descent σ N α} {outcome : Except Error α}
    (settled : Settles (fun budget => action (budget + 1)) memory outcome) :
    Settles action memory outcome := by
  obtain ⟨least, enough⟩ := settled
  refine ⟨least + 1, ?_⟩
  intro budget large
  obtain ⟨spare, rfl⟩ := Nat.exists_eq_add_of_le' large
  exact enough (spare + least) (by omega)

theorem pred {action : Nat → Descent σ N α} {outcome : Except Error α}
    (settled : Settles action memory outcome) :
    Settles (fun budget => action (budget + 1)) memory outcome := by
  obtain ⟨least, enough⟩ := settled
  exact ⟨least, fun budget large => enough (budget + 1) (by omega)⟩

theorem bind {action : Nat → Descent σ N α}
    {next : Nat → α → Descent σ N β} {result : α} {outcome : Except Error β}
    (first : Settles action memory (.ok result))
    (later : Settles (fun budget => next budget result) memory outcome) :
    Settles (fun budget => action budget >>= next budget) memory outcome := by
  obtain ⟨least, enough⟩ := first
  obtain ⟨leastLater, enoughLater⟩ := later
  refine ⟨max least leastLater, ?_⟩
  intro budget large
  rw [Descent.run_bind, enough budget (by omega)]
  exact enoughLater budget (by omega)

theorem bind_error {action : Nat → Descent σ N α}
    {next : Nat → α → Descent σ N β} {error : Error}
    (first : Settles action memory (.error error)) :
    Settles (fun budget => action budget >>= next budget) memory
      (.error error) := by
  obtain ⟨least, enough⟩ := first
  refine ⟨least, ?_⟩
  intro budget large
  rw [Descent.run_bind, enough budget large]

theorem bind_outcome {action : Nat → Descent σ N α}
    {next : α → Descent σ N β} {answer : α → Except Error β}
    {outcome : Except Error α} (first : Settles action memory outcome)
    (later : ∀ result, (next result).run memory = (answer result, memory)) :
    Settles (fun budget => action budget >>= next) memory
      (outcome >>= answer) := by
  cases outcome with
  | error error => exact first.bind_error
  | ok result => exact first.bind (always fun _ => later result)

theorem plain {action : Nat → Descent σ N (Evaluated N)}
    {outcome : Except Error (Evaluated N)} (context : String)
    (first : Settles action memory outcome) :
    Settles (fun budget => Descent.plain context (action budget)) memory
      (ByName.plain context outcome) :=
  first.bind_outcome fun _ => Descent.run_ofExcept _ _

theorem unique {action : Nat → Descent σ N α}
    {first second : Except Error α} (left : Settles action memory first)
    (right : Settles action memory second) : first = second := by
  obtain ⟨leastLeft, enoughLeft⟩ := left
  obtain ⟨leastRight, enoughRight⟩ := right
  have same := (enoughLeft (max leastLeft leastRight) (by omega)).symm.trans
    (enoughRight (max leastLeft leastRight) (by omega))
  exact congrArg Prod.fst same

end Settles

theorem Descent.run_accept_false (path : Path) (result : Evaluated N)
    (memory : Memory σ N) :
    (Descent.accept false path result).run memory =
      (ByName.accepted path result, memory) := by
  cases result with
  | plain value => rfl
  | shaped shape =>
      cases isField : path.isField <;>
        simp only [Descent.accept, ByName.accepted, isField] <;> rfl

theorem Descent.run_apply_ofFunction
    (function : List (Evaluated N) → Except Error (Evaluated N))
    (arguments : List (Evaluated N)) (memory : Memory σ N) :
    (Descent.apply (.ofFunction function) arguments).run memory =
      (function arguments, memory) := rfl

namespace ByName

variable [Scalar N] {evaluator : Evaluator σ N} {store : Store N}
  {overrides : Overrides N}

theorem settles_path {path : Path} {memory : Memory σ N}
    {outcome : Except Error (Evaluated N)}
    (settled : Settles
      (fun budget => evaluator.descendExpr overrides false budget
        (.reference path)) memory outcome) :
    Settles (fun budget => evaluator.descendPath overrides false budget path)
      memory outcome :=
  settled.pred

theorem settles_reference {path : Path} {memory : Memory σ N}
    {outcome : Except Error (Evaluated N)}
    (settled : Settles
      (fun budget => evaluator.meet overrides false budget path
        (memory.store.demand overrides path)) memory outcome) :
    Settles
      (fun budget => evaluator.descendExpr overrides false budget
        (.reference path)) memory outcome := by
  apply Settles.succ
  apply Settles.succ
  obtain ⟨least, enough⟩ := settled
  refine ⟨least, ?_⟩
  intro budget large
  have started : (evaluator.descendExpr overrides false (budget + 1 + 1)
      (.reference path)).run memory =
        (evaluator.meet overrides false budget path
          (memory.store.demand overrides path)).run memory :=
    Evaluator.run_descendPath budget path memory
  rw [started]
  exact enough budget large

theorem Evaluates.settles {expr : Expr} {outcome : Except Error (Evaluated N)}
    (evaluation : Evaluates evaluator.computations store overrides expr
      outcome) (world : σ) :
    Settles
      (fun budget => evaluator.descendExpr overrides false budget expr)
      ⟨store, world⟩ outcome := by
  induction evaluation using Evaluates.rec
    (motive_2 := fun exprs outcome _ => Settles
      (fun budget => exprs.mapM (evaluator.descendExpr overrides false budget))
      ⟨store, world⟩ outcome)
    (motive_3 := fun path names outcome _ => Settles
      (fun budget =>
        names.mapM (evaluator.descendProperty overrides false budget path))
      ⟨store, world⟩ outcome) with
  | leaf leaf =>
      apply Settles.succ
      apply Settles.always
      intro budget
      rw [Evaluator.descendExpr_leaf leaf]
      exact Descent.run_ofExcept _ _
  | unary operand induction =>
      apply Settles.succ
      exact (induction.plain _).bind_outcome fun _ => Descent.run_ofExcept _ _
  | @left op left right error outcome first failed induction =>
      apply Settles.succ
      have operand := induction.plain (operandContext op)
      rw [failed] at operand
      exact operand.bind_error
  | @binary op left right leftValue outcome first second firstInduction
      secondInduction =>
      apply Settles.succ
      have leftOperand := firstInduction.plain (operandContext op)
      have rightOperand := secondInduction.plain (operandContext op)
      exact leftOperand.bind
        (rightOperand.bind_outcome fun _ => Descent.run_ofExcept _ _)
  | unregistered absent =>
      apply Settles.succ
      apply Settles.always
      intro budget
      simp only [Evaluator.descendExpr, absent]
      rfl
  | computation registered arguments induction =>
      apply Settles.succ
      simp only [Evaluator.descendExpr, registered]
      exact induction.bind_outcome
        fun results => Descent.run_apply_ofFunction _ results _
  | missing asked =>
      apply settles_reference
      rw [asked]
      exact Settles.always fun _ => rfl
  | ready asked =>
      apply settles_reference
      rw [asked]
      exact Settles.always fun _ => rfl
  | slot asked inner induction =>
      apply settles_reference
      rw [asked]
      exact induction.bind_outcome
        fun result => Descent.run_accept_false _ result _
  | @shape path kind names outcome asked properties induction =>
      apply settles_reference
      rw [asked]
      rw [map_eq_pure_bind]
      exact induction.bind_outcome fun _ => rfl
  | nil =>
      simp only [List.mapM_nil]
      exact Settles.always fun _ => rfl
  | failed first induction =>
      simp only [List.mapM_cons]
      exact induction.bind_error
  | cons first rest firstInduction restInduction =>
      simp only [List.mapM_cons]
      rw [map_eq_pure_bind]
      exact firstInduction.bind (restInduction.bind_outcome fun _ => rfl)
  | empty =>
      simp only [List.mapM_nil]
      exact Settles.always fun _ => rfl
  | @refused path name rest error outcome first refusal induction =>
      have value := (settles_path induction).plain
        (Path.property path.object path.fieldName name).text
      rw [refusal] at value
      simp only [List.mapM_cons]
      exact Settles.bind_error value.bind_error
  | @property path name rest value outcome first later firstInduction
      restInduction =>
      have settled := (settles_path firstInduction).plain
        (Path.property path.object path.fieldName name).text
      simp only [List.mapM_cons]
      rw [map_eq_pure_bind]
      have entry : Settles (fun budget => evaluator.descendProperty overrides
          false budget path name) ⟨store, world⟩ (.ok (name, value)) :=
        settled.bind_outcome fun _ => rfl
      exact entry.bind (restInduction.bind_outcome fun _ => rfl)

variable {computations : Computations σ N}

/-- Evaluation by name has at most one outcome. -/
theorem Evaluates.deterministic [Nonempty σ]
    {expr : Expr} {first second : Except Error (Evaluated N)}
    (left : Evaluates computations store overrides expr first)
    (right : Evaluates computations store overrides expr second) :
    first = second := by
  obtain ⟨world⟩ := ‹Nonempty σ›
  let evaluator : Evaluator σ N := ⟨computations, 0⟩
  have leftSettled : Settles
      (fun budget => evaluator.descendExpr overrides false budget expr)
      ⟨store, world⟩ first := left.settles world
  have rightSettled : Settles
      (fun budget => evaluator.descendExpr overrides false budget expr)
      ⟨store, world⟩ second := right.settles world
  exact leftSettled.unique rightSettled

theorem EvaluatesAll.of_cons {expr : Expr} {exprs : List Expr}
    {results : List (Evaluated N)}
    (all : EvaluatesAll computations store overrides (expr :: exprs)
      (.ok results)) :
    ∃ result rest, results = result :: rest ∧
      Evaluates computations store overrides expr (.ok result) ∧
      EvaluatesAll computations store overrides exprs (.ok rest) := by
  generalize ended : Except.ok results = outcome at all
  cases all with
  | failed => cases ended
  | @cons _ _ result outcome first others =>
      cases outcome with
      | error error => cases ended
      | ok rest =>
          cases ended
          exact ⟨result, rest, rfl, first, others⟩

theorem EvaluatesAll.deterministic [Nonempty σ] {exprs : List Expr}
    {first second : List (Evaluated N)}
    (left : EvaluatesAll computations store overrides exprs (.ok first))
    (right : EvaluatesAll computations store overrides exprs (.ok second)) :
    first = second := by
  induction exprs generalizing first second with
  | nil =>
      cases left
      cases right
      rfl
  | cons expr exprs induction =>
      obtain ⟨_, _, rfl, leftFirst, leftRest⟩ := left.of_cons
      obtain ⟨_, _, rfl, rightFirst, rightRest⟩ := right.of_cons
      cases leftFirst.deterministic rightFirst
      rw [induction leftRest rightRest]

end ByName

end DiagramEnergy
