import Mathlib
import DiagramEnergy.Proofs.Evaluation.Chronicle
import DiagramEnergy.Proofs.Evaluation.Cycles

/-!
# Each slot is computed once

What an evaluation that succeeds adds to the trail of its pass is a chronicle.
That no slot is opened while it is open already rests on what an expression
needs: where its slot is among that, the expression cannot be evaluated.  Main
statement: over a whole pass, slots are opened while they are symbolic, never
within their own evaluation and never after they have kept a result, and those
that change are those that keep one.
-/

namespace DiagramEnergy

variable {σ N α β : Type}

namespace Evaluation

variable {pass final : Pass σ N}

theorem of_apply_ok {computation : Computation σ N}
    {arguments : List (Evaluated N)} {result : Evaluated N}
    (ran : Evaluation.apply computation arguments pass = .ok result final) :
    final.trail = pass.trail ∧ final.store = pass.store := by
  simp only [Evaluation.apply] at ran
  cases answer : (computation arguments).run pass.world with
  | mk outcome world =>
      rw [answer] at ran
      cases outcome with
      | error error => cases ran
      | ok found =>
          cases ran
          exact ⟨rfl, rfl⟩

/-- A symbolic slot keeps its result just if that is plain. -/
theorem of_close_ok {result : Evaluated N} {path : Path}
    (awaits : pass.store.awaitsValue path = true)
    (ran : close result path pass = .ok () final) :
    final.trail = .closed path result.isPlain :: pass.trail ∧
      final.store = pass.store.take path result := by
  cases result with
  | plain value =>
      cases ran
      exact ⟨congrArg (Mark.closed path · :: pass.trail) awaits, rfl⟩
  | shaped shape =>
      cases isField : path.isField with
      | false =>
          simp only [close, isField] at ran
          cases ran
      | true =>
          simp only [close, isField] at ran
          cases ran
          exact ⟨rfl, rfl⟩

end Evaluation

namespace Evaluator

variable [Scalar N]

/-- The marks between two passes are a chronicle, of slots from a set only. -/
def Logs (evaluator : Evaluator σ N) (overrides : Overrides N)
    (reach : Path → Prop) (pass final : Pass σ N) : Prop :=
  ∃ marks, final.trail = marks.reverse ++ pass.trail ∧
    evaluator.Chronicle overrides pass.store marks final.store ∧
    ∀ path, .opened path ∈ marks → reach path

/-- Where the store does not lead out of a set, an action that succeeds logs
slots of that set only. -/
def Logged (evaluator : Evaluator σ N) (overrides : Overrides N)
    (reach : Path → Prop) (action : Evaluation σ N α) : Prop :=
  ∀ pass final result, pass.store.Closed overrides reach →
    action pass = .ok result final →
    evaluator.Logs overrides reach pass final

variable {evaluator : Evaluator σ N} {overrides : Overrides N}
  {reach : Path → Prop}

namespace Logs

variable {pass between final : Pass σ N}

theorem of_unchanged (trail : final.trail = pass.trail)
    (store : final.store = pass.store) :
    evaluator.Logs overrides reach pass final := by
  refine ⟨[], by simpa using trail, ?_, by simp⟩
  rw [store]
  exact .nil pass.store

theorem trans (first : evaluator.Logs overrides reach pass between)
    (second : evaluator.Logs overrides reach between final) :
    evaluator.Logs overrides reach pass final := by
  obtain ⟨marks, trail, chronicle, reached⟩ := first
  obtain ⟨more, trailMore, onward, reachedMore⟩ := second
  refine ⟨marks ++ more, ?_, chronicle.append onward, ?_⟩
  · simp [trailMore, trail]
  · intro path opened
    rcases List.mem_append.1 opened with here | there
    · exact reached path here
    · exact reachedMore path there

theorem closed (logs : evaluator.Logs overrides reach pass final)
    (closed : pass.store.Closed overrides reach) :
    final.store.Closed overrides reach := by
  obtain ⟨_, -, chronicle, -⟩ := logs
  exact closed.filled chronicle.grown

end Logs

namespace Logged

theorem pure (result : α) :
    evaluator.Logged overrides reach
      (Pure.pure result : Evaluation σ N α) := by
  intro pass final _ _ ran
  cases ran
  exact .of_unchanged rfl rfl

theorem throw (error : Error) :
    evaluator.Logged overrides reach
      (MonadExcept.throw error : Evaluation σ N α) := by
  intro pass final _ _ ran
  cases ran

theorem ofExcept (outcome : Except Error α) :
    evaluator.Logged overrides reach
      (Evaluation.ofExcept outcome : Evaluation σ N α) := by
  cases outcome with
  | error error => exact throw error
  | ok result => exact pure result

theorem apply (computation : Computation σ N)
    (arguments : List (Evaluated N)) :
    evaluator.Logged overrides reach
      (Evaluation.apply computation arguments) := by
  intro pass final _ _ ran
  obtain ⟨trail, store⟩ := Evaluation.of_apply_ok ran
  exact .of_unchanged trail store

theorem bind {action : Evaluation σ N α} {next : α → Evaluation σ N β}
    (first : evaluator.Logged overrides reach action)
    (rest : ∀ result, evaluator.Logged overrides reach (next result)) :
    evaluator.Logged overrides reach (action >>= next) := by
  intro pass final result closed ran
  obtain ⟨found, between, ranFirst, ranNext⟩ := of_bind_ok ran
  have logs := first pass between found closed ranFirst
  exact logs.trans (rest found between final result (logs.closed closed) ranNext)

theorem map (change : α → β) {action : Evaluation σ N α}
    (first : evaluator.Logged overrides reach action) :
    evaluator.Logged overrides reach (change <$> action) := by
  rw [map_eq_pure_bind]
  exact first.bind fun result => pure (change result)

theorem mapM (items : List β) {action : β → Evaluation σ N α}
    (each : ∀ item ∈ items,
      evaluator.Logged overrides reach (action item)) :
    evaluator.Logged overrides reach (items.mapM action) := by
  induction items with
  | nil =>
      rw [List.mapM_nil]
      exact pure []
  | cons item items induction =>
      rw [List.mapM_cons]
      have rest := induction fun other member => each other (by simp [member])
      exact (each item (by simp)).bind fun first =>
        rest.bind fun results => pure (first :: results)

end Logged

/-- A slot is not opened again while its expression is evaluated. -/
theorem logs_own_expr {budget : Nat} {path : Path} {expr : Expr}
    {pass middle : Pass σ N} {result : Evaluated N}
    (exprs : ∀ reach, (∀ next, expr.Mentions next → reach next) →
      evaluator.Logged overrides reach
        (evaluator.evalExpr overrides budget expr))
    (closed : pass.store.Closed overrides reach) (reached : reach path)
    (asked : pass.store.demand overrides path = .ok (.evaluate expr))
    (evaluated : evaluator.evalExpr overrides budget expr
      { pass with trail := .opened path :: pass.trail } = .ok result middle) :
    ∃ inner, middle.trail = inner.reverse ++ .opened path :: pass.trail ∧
      evaluator.Chronicle overrides pass.store inner middle.store ∧
      .opened path ∉ inner ∧ ∀ other, .opened other ∈ inner → reach other := by
  -- What the evaluation opens is in the set, and the expression needs it.
  have closedBoth :=
    closed.and (pass.store.closed_needs overrides expr.Mentions)
  obtain ⟨inner, trail, chronicle, opened⟩ := exprs _
    (fun next mentioned => ⟨closed.slot reached asked mentioned,
      next, mentioned, .itself next⟩)
    { pass with trail := .opened path :: pass.trail } middle result closedBoth
    evaluated
  refine ⟨inner, trail, chronicle, ?_, fun other member => (opened other member).1⟩
  intro again
  obtain ⟨-, root, mentioned, needed⟩ := opened path again
  have erased := (evaluator.erases_evalExpr_visit overrides budget).1
    expr { pass with trail := .opened path :: pass.trail }
  rw [evaluated] at erased
  exact not_needs_of_descendExpr asked (congrArg Prod.fst erased.symm)
    mentioned needed

/-- A slot is symbolic until it is closed. -/
theorem logs_complete {budget : Nat} {path : Path} {expr : Expr}
    {pass final : Pass σ N} {result : Evaluated N}
    (exprs : ∀ reach, (∀ next, expr.Mentions next → reach next) →
      evaluator.Logged overrides reach
        (evaluator.evalExpr overrides budget expr))
    (closed : pass.store.Closed overrides reach) (reached : reach path)
    (asked : pass.store.demand overrides path = .ok (.evaluate expr))
    (ran : evaluator.complete overrides budget path expr pass =
      .ok result final) : evaluator.Logs overrides reach pass final := by
  obtain ⟨middle, evaluated, closing⟩ := of_complete_ok ran
  obtain ⟨inner, trail, chronicle, absent, opened⟩ :=
    logs_own_expr exprs closed reached asked evaluated
  have awaits : middle.store.awaitsValue path = true := by
    rw [Store.awaitsValue, chronicle.content?_of_not_opened absent,
      (Store.demand_evaluate_iff.1 asked).2]
    rfl
  obtain ⟨trailClosed, taken⟩ := Evaluation.of_close_ok awaits closing
  have produced :
      evaluator.Produces overrides expr result pass.store middle.store :=
    ⟨budget, _, middle, evaluated, rfl, rfl⟩
  have ends : evaluator.Chronicle overrides
      (middle.store.take path result) [] final.store := by
    rw [taken]
    exact .nil _
  refine ⟨_, ?_, .slot asked produced chronicle absent ends, ?_⟩
  · simp [trailClosed, trail]
  · intro other member
    rcases Mark.opened_mem_slot.1 member with rfl | within | after
    · exact reached
    · exact opened other within
    · simp at after

theorem logged_evalExpr_succ {budget : Nat}
    (exprs : ∀ expr reach, (∀ next, expr.Mentions next → reach next) →
      evaluator.Logged overrides reach
        (evaluator.evalExpr overrides budget expr))
    (paths : ∀ path reach, reach path → evaluator.Logged overrides reach
      (evaluator.visit overrides budget path))
    (expr : Expr) (reach : Path → Prop)
    (reached : ∀ next, expr.Mentions next → reach next) :
    evaluator.Logged overrides reach
      (evaluator.evalExpr overrides (budget + 1) expr) := by
  cases expr using Expr.byForm with
  | leaf expr leaf =>
      rw [evalExpr_leaf leaf]
      exact Logged.ofExcept _
  | unary op operand =>
      have logged := exprs operand reach fun next mentioned =>
        reached next (.unary mentioned)
      exact logged.bind fun _ => (Logged.ofExcept _).bind fun _ =>
        (Logged.ofExcept _).map _
  | binary op left right =>
      have leftLogged := exprs left reach fun next mentioned =>
        reached next (.left mentioned)
      have rightLogged := exprs right reach fun next mentioned =>
        reached next (.right mentioned)
      exact leftLogged.bind fun _ => (Logged.ofExcept _).bind fun _ =>
        rightLogged.bind fun _ => (Logged.ofExcept _).bind fun _ =>
          (Logged.ofExcept _).map _
  | computation name arguments =>
      simp only [evalExpr]
      cases evaluator.computations.get? name with
      | none => exact Logged.throw _
      | some computation =>
          have logged : ∀ argument ∈ arguments,
              evaluator.Logged overrides reach
                (evaluator.evalExpr overrides budget argument) := by
            intro argument member
            exact exprs argument reach fun next mentioned =>
              reached next (.argument member mentioned)
          exact (Logged.mapM arguments logged).bind fun _ =>
            Logged.apply computation _
  | reference path =>
      rw [evalExpr_reference]
      exact paths path reach (reached path (.reference path))

theorem logged_visit_succ {budget : Nat}
    (exprs : ∀ expr reach, (∀ next, expr.Mentions next → reach next) →
      evaluator.Logged overrides reach
        (evaluator.evalExpr overrides budget expr))
    (paths : ∀ path reach, reach path → evaluator.Logged overrides reach
      (evaluator.visit overrides budget path))
    (path : Path) (reach : Path → Prop) (reached : reach path) :
    evaluator.Logged overrides reach
      (evaluator.visit overrides (budget + 1) path) := by
  intro pass final result closed ran
  obtain ⟨wanted, asked, attended⟩ := of_visit_ok ran
  cases wanted with
  | ready value =>
      cases attended
      exact .of_unchanged rfl rfl
  | evaluate expr =>
      exact logs_complete (exprs expr) closed reached asked attended
  | assemble kind names =>
      have parts : ∀ name ∈ names, evaluator.Logged overrides reach
          (evaluator.visitProperty overrides budget path name) := by
        intro name member
        have logged := paths _ reach (closed.part reached asked member)
        exact logged.bind fun _ => (Logged.ofExcept _).bind fun _ =>
          Logged.pure _
      have whole := (Logged.mapM names parts).bind fun values =>
        Logged.pure (Evaluated.shaped (Shape.assembled path kind values))
      exact whole pass final result closed attended

variable (evaluator overrides) in
/-- All that evaluations and visits add to a trail are chronicles. -/
theorem logged (budget : Nat) :
    (∀ expr reach, (∀ next, expr.Mentions next → reach next) →
      evaluator.Logged overrides reach
        (evaluator.evalExpr overrides budget expr)) ∧
    (∀ path reach, reach path → evaluator.Logged overrides reach
      (evaluator.visit overrides budget path)) := by
  induction budget with
  | zero => exact ⟨fun _ _ _ => Logged.throw _, fun _ _ _ => Logged.throw _⟩
  | succ budget induction =>
      obtain ⟨exprs, paths⟩ := induction
      constructor
      · exact logged_evalExpr_succ exprs paths
      · exact logged_visit_succ exprs paths

/-- What the marks of a pass say about the slots that it computes: none is
opened within its own evaluation, or after it has kept a result, or unless it is
symbolic at the start and not overridden; and those that change are those that
have been opened and have kept a result. -/
structure ComputesOnce (overrides : Overrides N) (start : Store N)
    (marks : List Mark) (last : Store N) : Prop where
  nested : Mark.Nested marks
  settled : marks.Pairwise fun earlier later =>
    ∀ path, earlier = .closed path true → later ≠ .opened path
  symbolic : ∀ path, .opened path ∈ marks →
    overrides.get? path = none ∧
      ∃ expr, start.content? path = some (.symbolic expr)
  outline : last.outline = start.outline
  changed : ∀ path, last.content? path ≠ start.content? path ↔
    .opened path ∈ marks ∧ .closed path true ∈ marks

theorem Chronicle.computesOnce {start last : Store N} {marks : List Mark}
    (chronicle : evaluator.Chronicle overrides start marks last) :
    ComputesOnce overrides start marks last := by
  refine ⟨chronicle.nested, chronicle.settled, ?_, chronicle.grown.outline, ?_⟩
  · intro path opened
    obtain ⟨expr, asked⟩ := chronicle.demand_of_opened opened
    obtain ⟨free, symbolic⟩ := Store.demand_evaluate_iff.1 asked
    exact ⟨free, expr, symbolic⟩
  · intro path
    rw [chronicle.content?_ne_iff]
    constructor
    · intro cached
      exact ⟨chronicle.nested.opened_of_closed cached, cached⟩
    · exact And.right

/-- Expressions that are evaluated one after the other compute each slot at most
once, whatever the computations do; if these are pure, a slot that keeps its
result is opened just once. -/
theorem slots_computed_once {depth : Nat} {exprs : List Expr}
    {pass final : Pass σ N} {results : List (Evaluated N)}
    (succeeded : exprs.mapM (evaluator.evalExprAt overrides depth) pass =
      .ok results final) :
    ∃ marks, final.trail = marks.reverse ++ pass.trail ∧
      evaluator.Chronicle overrides pass.store marks final.store ∧
      ComputesOnce overrides pass.store marks final.store ∧
      (evaluator.computations.ArePure → ∀ path,
        .closed path true ∈ marks → marks.count (.opened path) = 1) := by
  have each : ∀ expr ∈ exprs, evaluator.Logged overrides (fun _ => True)
      (evaluator.evalExprAt overrides depth expr) := by
    intro expr _
    exact (evaluator.logged overrides (evaluator.limit - depth)).1 expr _
      fun _ _ => trivial
  obtain ⟨marks, trail, chronicle, -⟩ := Logged.mapM exprs each pass final
    results (pass.store.closed_all overrides) succeeded
  refine ⟨marks, trail, chronicle, chronicle.computesOnce, ?_⟩
  intro pureComputations path cached
  have : Nonempty σ := ⟨pass.world⟩
  exact chronicle.count_opened_eq_one pureComputations cached

/-- An evaluator with one computation, which tells how often it has been called. -/
def counting : Evaluator Nat Float :=
  ⟨Table.empty.insert "count" fun _ => ExceptT.mk fun calls =>
    (.ok (.plain (.int (calls + 1).toInt64)), calls + 1), 9⟩

/-- The computation is called once, although four references lead to it. -/
theorem slots_computed_once_counting :
    let x : Path := .field "A" "x"
    let y : Path := .field "A" "y"
    let store (first second : Content Float) : Store Float :=
      ((Store.empty.declare "A").bind "A" "x" (.scalar first)).bind "A" "y"
        (.scalar second)
    let start := store (.symbolic (.computation "count" []))
      (.symbolic (.binary .add (.reference x) (.reference x)))
    let last := store (.concrete (.int 1)) (.concrete (.int 2))
    let trail : List Mark :=
      [.closed y true, .closed x true, .opened x, .opened y]
    [.reference y, .reference x, .reference y].mapM
        (counting.evalExprAt .empty 0) ⟨start, 0, []⟩ =
      .ok [.plain (.int 2), .plain (.int 1), .plain (.int 2)]
        ⟨last, 1, trail⟩ ∧
    ∃ marks, trail = marks.reverse ++ [] ∧
      ComputesOnce .empty start marks last := by
  intro x y store start last trail
  have succeeded : [.reference y, .reference x, .reference y].mapM
      (counting.evalExprAt .empty 0) ⟨start, 0, []⟩ =
        .ok [.plain (.int 2), .plain (.int 1), .plain (.int 2)]
          ⟨last, 1, trail⟩ := by
    cbv
  obtain ⟨marks, same, -, once, -⟩ := slots_computed_once succeeded
  exact ⟨succeeded, marks, same, once⟩

end Evaluator

end DiagramEnergy
