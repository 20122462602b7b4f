import DiagramEnergy.Proofs.Evaluation.Triple
import DiagramEnergy.Proofs.Store.Filling

/-!
# What an evaluation reaches

The paths that an evaluation may come across are those that its expression
mentions and all that these need in turn.  Whatever the computations do, a
descent fills contents of such paths only, and never a marker of a free slot.
-/

namespace DiagramEnergy

variable {σ N : Type}

/-- The references of an expression that evaluation comes across. -/
inductive Expr.Mentions : Expr → Path → Prop where
  | reference (path : Path) : Mentions (.reference path) path
  | unary {op : UnaryOp} {operand : Expr} {path : Path} :
      Mentions operand path → Mentions (.unary op operand) path
  | left {op : BinaryOp} {left right : Expr} {path : Path} :
      Mentions left path → Mentions (.binary op left right) path
  | right {op : BinaryOp} {left right : Expr} {path : Path} :
      Mentions right path → Mentions (.binary op left right) path
  | argument {name : String} {arguments : List Expr} {argument : Expr}
      {path : Path} : argument ∈ arguments → Mentions argument path →
      Mentions (.computation name arguments) path

namespace Store

/-- A path needs itself and all that its slot or its shape refers to. -/
inductive Needs (store : Store N) (overrides : Overrides N) :
    Path → Path → Prop where
  | itself (path : Path) : Needs store overrides path path
  | slot {path next other : Path} {expr : Expr} :
      store.demand overrides path = .ok (.evaluate expr) →
      expr.Mentions next → Needs store overrides next other →
      Needs store overrides path other
  | part {path other : Path} {kind name : String} {names : List String} :
      store.demand overrides path = .ok (.assemble kind names) →
      name ∈ names →
      Needs store overrides (.property path.object path.fieldName name) other →
      Needs store overrides path other

/-- A set of paths that no demand leads out of. -/
structure Closed (store : Store N) (overrides : Overrides N)
    (reach : Path → Prop) : Prop where
  slot : ∀ {path next expr}, reach path →
    store.demand overrides path = .ok (.evaluate expr) →
    expr.Mentions next → reach next
  part : ∀ {path kind name} {names : List String}, reach path →
    store.demand overrides path = .ok (.assemble kind names) →
    name ∈ names → reach (.property path.object path.fieldName name)

theorem closed_all (store : Store N) (overrides : Overrides N) :
    store.Closed overrides fun _ => True :=
  ⟨fun _ _ _ => trivial, fun _ _ _ => trivial⟩

theorem Closed.and {store : Store N} {overrides : Overrides N}
    {reach other : Path → Prop} (closed : store.Closed overrides reach)
    (closedOther : store.Closed overrides other) :
    store.Closed overrides fun path => reach path ∧ other path := by
  constructor
  · intro path next expr ⟨left, right⟩ asked mentioned
    exact ⟨closed.slot left asked mentioned,
      closedOther.slot right asked mentioned⟩
  · intro path kind name names ⟨left, right⟩ asked member
    exact ⟨closed.part left asked member,
      closedOther.part right asked member⟩

/-- Filling takes demands away and adds none. -/
theorem Closed.filled {start later : Store N} {overrides : Overrides N}
    {reach : Path → Prop} {rule : Path → Value N → Prop}
    (closed : start.Closed overrides reach)
    (filled : start.Filled overrides rule later) :
    later.Closed overrides reach := by
  constructor
  · intro path next expr reached asked mentioned
    exact closed.slot reached (filled.demand_evaluate asked) mentioned
  · intro path kind name names reached asked member
    exact closed.part reached (filled.demand_assemble asked) member

theorem Needs.trans {store : Store N} {overrides : Overrides N}
    {path next other : Path} (first : store.Needs overrides path next)
    (second : store.Needs overrides next other) :
    store.Needs overrides path other := by
  induction first with
  | itself path => exact second
  | slot asked mentioned _ induction =>
      exact .slot asked mentioned (induction second)
  | part asked member _ induction => exact .part asked member (induction second)

/-- What some paths need together. -/
theorem closed_needs (store : Store N) (overrides : Overrides N)
    (roots : Path → Prop) :
    store.Closed overrides fun path =>
      ∃ root, roots root ∧ store.Needs overrides root path := by
  constructor
  · intro path next expr ⟨root, start, needed⟩ asked mentioned
    exact ⟨root, start, needed.trans (.slot asked mentioned (.itself next))⟩
  · intro path kind name names ⟨root, start, needed⟩ asked member
    exact ⟨root, start, needed.trans (.part asked member (.itself _))⟩

/-- The rule of filling reached contents that are no markers. -/
def fillable (start : Store N) (reach : Path → Prop) (path : Path)
    (_ : Value N) : Prop :=
  reach path ∧ start.content? path ≠ some (.symbolic .vary)

end Store

namespace Evaluator

variable [Scalar N] {evaluator : Evaluator σ N} {overrides : Overrides N}
  {caching : Bool} {start : Store N} {reach : Path → Prop}

variable (evaluator overrides caching) in
theorem run_descendExpr_vary (budget : Nat) (memory : Memory σ N) :
    ∃ error, (evaluator.descendExpr overrides caching budget .vary).run memory =
      (.error error, memory) := by
  cases budget with
  | zero => exact ⟨_, rfl⟩
  | succ budget => exact ⟨_, rfl⟩

/-- A marker of a free slot is never accepted. -/
theorem keeps_accept {budget : Nat} {expr : Expr} {path : Path}
    (reached : reach path)
    (asked : start.demand overrides path = .ok (.evaluate expr))
    (kept : Keeps (start.Filled overrides (start.fillable reach))
      (evaluator.descendExpr overrides caching budget expr)) :
    Keeps (start.Filled overrides (start.fillable reach)) (do
      let result ← evaluator.descendExpr overrides caching budget expr
      Descent.accept caching path result) := by
  by_cases marker : expr = .vary
  · subst marker
    intro memory holds
    obtain ⟨error, ran⟩ :=
      run_descendExpr_vary evaluator overrides caching budget memory
    rw [Descent.run_bind, ran]
    exact holds
  · apply kept.bind
    intro result memory holds
    rw [Descent.run_accept]
    cases result with
    | shaped shape => exact holds
    | plain value =>
        cases caching with
        | false => exact holds
        | true =>
            have free : start.content? path ≠ some (.symbolic .vary) := by
              rw [(Store.demand_evaluate_iff.1 asked).2]
              simpa using marker
            exact holds.cacheValue asked ⟨reached, free⟩

theorem keeps_descendExpr_succ {budget : Nat}
    (exprs : ∀ expr, (∀ next, expr.Mentions next → reach next) →
      Keeps (start.Filled overrides (start.fillable reach))
        (evaluator.descendExpr overrides caching budget expr))
    (paths : ∀ path, reach path →
      Keeps (start.Filled overrides (start.fillable reach))
        (evaluator.descendPath overrides caching budget path))
    (expr : Expr) (reached : ∀ next, expr.Mentions next → reach next) :
    Keeps (start.Filled overrides (start.fillable reach))
      (evaluator.descendExpr overrides caching (budget + 1) expr) := by
  cases expr using Expr.byForm with
  | leaf expr leaf =>
      rw [descendExpr_leaf leaf]
      exact Keeps.ofExcept _
  | unary op operand =>
      have kept := exprs operand fun next mentioned =>
        reached next (.unary mentioned)
      exact (kept.plain _).bind fun _ => Keeps.ofExcept _
  | binary op left right =>
      have leftKept := exprs left fun next mentioned =>
        reached next (.left mentioned)
      have rightKept := exprs right fun next mentioned =>
        reached next (.right mentioned)
      exact (leftKept.plain _).bind fun _ =>
        (rightKept.plain _).bind fun _ => Keeps.ofExcept _
  | computation name arguments =>
      simp only [descendExpr]
      cases evaluator.computations.get? name with
      | none => exact Keeps.throw _
      | some computation =>
          have kept : ∀ argument ∈ arguments,
              Keeps (start.Filled overrides (start.fillable reach))
                (evaluator.descendExpr overrides caching budget argument) := by
            intro argument member
            exact exprs argument fun next mentioned =>
              reached next (.argument member mentioned)
          exact (Keeps.mapM arguments kept).bind fun _ => Keeps.apply _ _
  | reference path => exact paths path (reached path (.reference path))

theorem keeps_descendPath_succ (closed : start.Closed overrides reach)
    {budget : Nat}
    (exprs : ∀ expr, (∀ next, expr.Mentions next → reach next) →
      Keeps (start.Filled overrides (start.fillable reach))
        (evaluator.descendExpr overrides caching budget expr))
    (paths : ∀ path, reach path →
      Keeps (start.Filled overrides (start.fillable reach))
        (evaluator.descendPath overrides caching budget path))
    (path : Path) (reached : reach path) :
    Keeps (start.Filled overrides (start.fillable reach))
      (evaluator.descendPath overrides caching (budget + 1) path) := by
  intro memory holds
  rw [run_descendPath]
  cases asked : memory.store.demand overrides path with
  | error error => exact holds
  | ok wanted =>
      cases wanted with
      | ready value => exact holds
      | evaluate expr =>
          have first := holds.demand_evaluate asked
          have kept := exprs expr fun next mentioned =>
            closed.slot reached first mentioned
          exact keeps_accept reached first kept memory holds
      | assemble kind names =>
          have first := holds.demand_assemble asked
          have parts : ∀ name ∈ names,
              Keeps (start.Filled overrides (start.fillable reach))
                (evaluator.descendProperty overrides caching budget path
                  name) := by
            intro name member
            have kept := paths _ (closed.part reached first member)
            exact (kept.plain _).bind fun value => Keeps.pure (name, value)
          exact (Keeps.mapM names parts).bind (fun _ => Keeps.pure _) memory holds

variable (evaluator caching) in
/-- A descent only fills what it may come across, and no markers. -/
theorem keeps_descend (closed : start.Closed overrides reach) (budget : Nat) :
    (∀ expr, (∀ next, expr.Mentions next → reach next) →
      Keeps (start.Filled overrides (start.fillable reach))
        (evaluator.descendExpr overrides caching budget expr)) ∧
    (∀ path, reach path →
      Keeps (start.Filled overrides (start.fillable reach))
        (evaluator.descendPath overrides caching budget path)) := by
  induction budget with
  | zero => exact ⟨fun _ _ => Keeps.throw _, fun _ _ => Keeps.throw _⟩
  | succ budget induction =>
      obtain ⟨exprs, paths⟩ := induction
      constructor
      · exact keeps_descendExpr_succ exprs paths
      · exact keeps_descendPath_succ closed exprs paths

end Evaluator

end DiagramEnergy
