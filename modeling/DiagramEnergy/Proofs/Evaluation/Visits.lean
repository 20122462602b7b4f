import DiagramEnergy.Proofs.Evaluation.Descent

/-!
# Visits to paths

A visit follows references from a path and closes the chain of slots behind it.
The same can be said without chains: a visit reads a value, or it opens a slot,
evaluates its expression and closes it again, or it visits the properties of a
shape.  So the marks of a slot enclose all that happens for it, although the
loop closes whole chains at their ends.
-/

namespace DiagramEnergy

variable {σ N α β : Type}

/-- What had to succeed for a sequence to succeed. -/
theorem of_bind_ok {state : Type} {action : EStateM Error state α}
    {next : α → EStateM Error state β} {start final : state} {result : β}
    (ran : (action >>= next) start = .ok result final) :
    ∃ first between, action start = .ok first between ∧
      next first between = .ok result final := by
  simp only [Bind.bind, EStateM.bind] at ran
  cases first : action start with
  | ok found between =>
      rw [first] at ran
      exact ⟨found, between, rfl, ran⟩
  | error error between =>
      rw [first] at ran
      cases ran

namespace Evaluation

theorem settle_cons (result : Evaluated N) (path : Path)
    (chain : List Path) :
    (settle result (path :: chain) : Evaluation σ N (Evaluated N)) = (do
      let result ← settle result [path]
      settle result chain) := by
  simp [settle]

end Evaluation

namespace Evaluator

variable [Scalar N] (evaluator : Evaluator σ N) (overrides : Overrides N)

/-- Evaluates what a path leads to, as a reference to it does. -/
def visit (budget : Nat) (path : Path) : Evaluation σ N (Evaluated N) := do
  let (result, chain) ← evaluator.follow overrides budget path []
  .settle result chain

/-- A property of the shape at a path, with its name. -/
def visitProperty (budget : Nat) (path : Path) (name : String) :
    Evaluation σ N (String × Value N) := do
  let property := Path.property path.object path.fieldName name
  let result ← evaluator.visit overrides budget property
  let value ← .ofExcept (result.toValue property.text)
  return (name, value)

/-- The life of a slot from its opening to its closing.  A slot with a reference
is not even opened when there is no budget for the reference. -/
def complete (budget : Nat) (path : Path) (expr : Expr) :
    Evaluation σ N (Evaluated N) :=
  match budget, expr with
  | 0, .reference next => throw (evaluator.exceeded (Expr.reference next).describe)
  | budget, expr => do
    .mark (.opened path)
    let result ← evaluator.evalExpr overrides budget expr
    .close result path
    return result

/-- How a visit meets what a path asks for. -/
def attend (budget : Nat) (path : Path) :
    Demand N → Evaluation σ N (Evaluated N)
  | .ready value => return .plain value
  | .evaluate expr => evaluator.complete overrides budget path expr
  | .assemble kind names => do
    let values ← names.mapM (evaluator.visitProperty overrides budget path)
    return .shaped (.assembled path kind values)

variable {evaluator overrides}

theorem evalExpr_reference (budget : Nat) (path : Path) :
    evaluator.evalExpr overrides (budget + 1) (.reference path) =
      evaluator.visit overrides budget path := rfl

variable (evaluator overrides) in
/-- The chain that has come together before a visit is closed after it. -/
theorem follow_settle (budget : Nat) (path : Path) (chain : List Path) :
    (do
      let (result, settled) ← evaluator.follow overrides budget path chain
      Evaluation.settle result settled) = (do
      let result ← evaluator.visit overrides budget path
      Evaluation.settle result chain) := by
  induction budget using Nat.strongRecOn generalizing path chain with
  | ind budget induction =>
      cases budget with
      | zero => rfl
      | succ budget =>
          simp only [visit, follow, bind_assoc]
          apply bind_congr
          intro pass
          apply bind_congr
          intro resolved
          cases Demand.ofResolved resolved with
          | ready value => simp [Evaluation.settle]
          | assemble kind names => simp [Evaluation.settle]
          | evaluate expr =>
              cases expr with
              | reference next =>
                  cases budget with
                  | zero => rfl
                  | succ budget =>
                      have behind :=
                        induction budget (by omega) next (path :: chain)
                      have alone := induction budget (by omega) next [path]
                      simp only [bind_assoc]
                      apply bind_congr
                      intro _
                      refine behind.trans ?_
                      simp only [Evaluation.settle_cons _ path chain,
                        ← bind_assoc]
                      rw [← alone]
              | _ => simp [Evaluation.settle]

/-- A slot with a reference is closed with the chain that it is in. -/
theorem complete_reference (budget : Nat) (path next : Path) :
    evaluator.complete overrides (budget + 1) path (.reference next) = (do
      Evaluation.mark (.opened path)
      let (result, chain) ← evaluator.follow overrides budget next [path]
      Evaluation.settle result chain) := by
  rw [follow_settle evaluator overrides budget next [path]]
  simp [complete, evalExpr_reference, Evaluation.settle]

theorem visit_succ (budget : Nat) (path : Path) :
    evaluator.visit overrides (budget + 1) path = (do
      let wanted ← Evaluation.ofExcept
        ((← get).store.demand overrides path)
      evaluator.attend overrides budget path wanted) := by
  simp only [visit, follow, bind_assoc]
  apply bind_congr
  intro pass
  rw [Store.demand]
  cases pass.store.resolve overrides path with
  | error error => rfl
  | ok resolved =>
      change _ = (do
        let wanted ← Evaluation.ofExcept (.ok (Demand.ofResolved resolved))
        evaluator.attend overrides budget path wanted)
      simp only [Evaluation.ofExcept_eq_pure, pure_bind]
      cases Demand.ofResolved resolved with
      | ready value => rfl
      | assemble kind names =>
          simp only [attend, bind_assoc]
          change _ = (names.mapM fun name =>
            evaluator.visitProperty overrides budget path name) >>= _
          simp [visitProperty, visit, Evaluation.settle]
      | evaluate expr =>
          cases expr with
          | reference next =>
              cases budget with
              | zero => rfl
              | succ budget =>
                  rw [attend, complete_reference]
                  simp only [bind_assoc]
          | _ => simp [attend, complete, Evaluation.settle]

theorem of_visit_ok {budget : Nat} {path : Path} {pass final : Pass σ N}
    {result : Evaluated N}
    (ran : evaluator.visit overrides (budget + 1) path pass =
      .ok result final) :
    ∃ wanted, pass.store.demand overrides path = .ok wanted ∧
      evaluator.attend overrides budget path wanted pass =
        .ok result final := by
  rw [visit_succ] at ran
  obtain ⟨wanted, _, found, ran⟩ := @of_bind_ok _ _ _
    (Evaluation.ofExcept (pass.store.demand overrides path)) _ _ _ _ ran
  obtain ⟨asked, rfl⟩ := Evaluation.ofExcept_eq_ok_iff.1 found
  exact ⟨wanted, asked, ran⟩

theorem of_complete_ok {budget : Nat} {path : Path} {expr : Expr}
    {pass final : Pass σ N} {result : Evaluated N}
    (ran : evaluator.complete overrides budget path expr pass =
      .ok result final) :
    ∃ middle, evaluator.evalExpr overrides budget expr
        { pass with trail := .opened path :: pass.trail } =
          .ok result middle ∧
      Evaluation.close result path middle = .ok () final := by
  unfold complete at ran
  split at ran
  · cases ran
  · obtain ⟨_, _, marked, ran⟩ := of_bind_ok ran
    cases marked
    obtain ⟨found, middle, evaluated, ran⟩ := of_bind_ok ran
    obtain ⟨_, _, closed, returned⟩ := of_bind_ok ran
    cases returned
    exact ⟨middle, evaluated, closed⟩

end Evaluator

end DiagramEnergy
