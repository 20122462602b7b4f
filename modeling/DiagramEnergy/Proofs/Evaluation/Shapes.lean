import DiagramEnergy.Proofs.Evaluation.Agreement
import DiagramEnergy.Proofs.Evaluation.Loop
import DiagramEnergy.Proofs.Evaluation.Restating

/-!
# Evaluating shapes

The shapes at some paths are evaluated in order, each by a descent to its path
that has to end in a shape.
-/

namespace DiagramEnergy

variable {σ N : Type}

namespace Evaluator

variable [Scalar N] (evaluator : Evaluator σ N) (overrides : Overrides N)

def descendShape (path : Path) : Descent σ N (Shape N) := do
  let result ← evaluator.descendPath overrides true evaluator.limit path
  match result with
  | .shaped shape => return shape
  | .plain value =>
    throw (.typeMismatch path.text (.expected "shape" value.label))

theorem erases_evalShape (path : Path) :
    Erases (evaluator.evalShape overrides path)
      (evaluator.descendShape overrides path) := by
  have follows := (evaluator.erases_evalExpr_visit overrides
    evaluator.limit).2 path
  apply follows.bind
  intro result
  cases result with
  | shaped shape => exact Erases.pure shape
  | plain value => exact Erases.throw _

theorem forget_evalShapes (paths : List Path) (pass : Pass σ N) :
    Evaluation.forget (evaluator.evalShapes overrides paths pass) =
      (paths.mapM (evaluator.descendShape overrides)).run pass.memory :=
  Erases.mapM (evaluator.erases_evalShape overrides) paths pass

variable {evaluator overrides}

theorem keeps_descendShape (start : Store N) (path : Path) :
    Keeps (start.Filled overrides (start.fillable fun _ => True))
      (evaluator.descendShape overrides path) := by
  have descent := (evaluator.keeps_descend true (start.closed_all overrides)
    evaluator.limit).2 path trivial
  apply descent.bind
  intro result
  cases result with
  | shaped shape => exact Keeps.pure shape
  | plain value => exact Keeps.throw _

/-- Evaluating shapes fills symbolic contents and no markers. -/
theorem filled_evalShapes (paths : List Path) (pass : Pass σ N) :
    pass.store.Filled overrides (pass.store.fillable fun _ => True)
      (Evaluation.forget
        (evaluator.evalShapes overrides paths pass)).2.store := by
  rw [forget_evalShapes]
  exact Keeps.mapM paths (fun path _ => keeps_descendShape pass.store path)
    pass.memory (.refl _)

/-- Overrides that restate the store do not change any shape. -/
theorem forget_evalShapes_of_restates {paths : List Path} {pass : Pass σ N}
    (restates : overrides.Restates pass.store) :
    Evaluation.forget (evaluator.evalShapes overrides paths pass) =
      Evaluation.forget (evaluator.evalShapes .empty paths pass) := by
  rw [forget_evalShapes, forget_evalShapes]
  have alike : ∀ path ∈ paths, Alike overrides
      (evaluator.descendShape overrides path)
      (evaluator.descendShape .empty path) := by
    intro path _
    have descent :=
      (evaluator.alike_descend overrides true evaluator.limit).2 path
    apply descent.bind
    intro result
    cases result with
    | shaped shape => exact Alike.pure shape
    | plain value => exact Alike.throw _
  exact (Alike.mapM paths alike pass.memory restates).1

section

open ByName

/-- Shapes that are evaluated once have the same values in every other world. -/
theorem evalShapes_of_evalShapes
    (pureComputations : evaluator.computations.ArePure) {paths : List Path}
    {pass other : Pass σ N} (same : other.store = pass.store)
    {shapes : List (Shape N)}
    (succeeded : (Evaluation.forget
      (evaluator.evalShapes overrides paths pass)).1 = .ok shapes) :
    (Evaluation.forget
      (evaluator.evalShapes overrides paths other)).1 = .ok shapes := by
  rw [forget_evalShapes] at succeeded ⊢
  have follows : ∀ path ∈ paths,
      Follows evaluator.computations overrides pass.store
        (evaluator.descendShape overrides path)
        (evaluator.descendShape overrides path) := by
    intro path _
    have descent := (follows_descend pureComputations overrides pass.store true
      evaluator.limit).2 path
    apply descent.bind
    intro result
    cases result with
    | shaped shape => exact Follows.pure shape
    | plain value => exact Follows.throw _
  have warm : Warm evaluator.computations overrides pass.store
      other.memory.store := by
    rw [show other.memory.store = pass.store from same]
    exact warm_start
  exact (Follows.mapM paths follows pass.memory other.memory (warmer_start warm)
    shapes succeeded).1

/-- The shapes are those that evaluation by name assembles at the paths. -/
theorem evaluates_of_evalShapes
    (pureComputations : evaluator.computations.ArePure) {paths : List Path}
    {pass : Pass σ N} {shapes : List (Shape N)}
    (succeeded : (Evaluation.forget
      (evaluator.evalShapes overrides paths pass)).1 = .ok shapes) :
    shapes.length = paths.length ∧ ∀ pair ∈ paths.zip shapes,
      Evaluates evaluator.computations pass.store overrides
        (.reference pair.1) (.ok (.shaped pair.2)) := by
  rw [forget_evalShapes] at succeeded
  have sound : ∀ path ∈ paths,
      Ensures (Remembers evaluator.computations overrides pass.store)
        (evaluator.descendShape overrides path) fun outcome later =>
          Remembers evaluator.computations overrides pass.store later ∧
          ∀ shape, outcome = .ok shape →
            Evaluates evaluator.computations pass.store overrides
              (.reference path) (.ok (.shaped shape)) := by
    intro path _
    have descent := (sound_descend pureComputations overrides pass.store true
      evaluator.limit).2 path
    refine Ensures.bind descent ?_ ?_
    · intro result
      cases result with
      | shaped shape =>
          apply Ensures.pure
          intro store ⟨remembers, answered⟩
          refine ⟨remembers, ?_⟩
          intro other same
          cases same
          exact answered.ok
      | plain value =>
          apply Ensures.throw
          intro store ⟨remembers, _⟩
          refine ⟨remembers, ?_⟩
          intro other same
          cases same
    · intro error store ⟨remembers, _⟩
      refine ⟨remembers, ?_⟩
      intro other same
      cases same
  exact (Ensures.mapM paths sound pass.memory (.refl _)).2 shapes succeeded

end

end Evaluator

end DiagramEnergy
