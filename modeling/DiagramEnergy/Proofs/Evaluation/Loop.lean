import DiagramEnergy.Proofs.Evaluation.Visits

/-!
# Following references in a loop

The loop that follows references and closes the chain of slots behind it has
the result, the store and the world of the caching descent.  Only the marks of
a pass are left out of this: an action erases to a descent if both do the same
to a memory.
-/

namespace DiagramEnergy

variable {σ N α β : Type}

/-- The outcome of an evaluation, without its marks. -/
def Evaluation.forget :
    EStateM.Result Error (Pass σ N) α → Except Error α × Memory σ N
  | .ok result pass => (.ok result, pass.memory)
  | .error error pass => (.error error, pass.memory)

def Erases (action : Evaluation σ N α) (descent : Descent σ N α) : Prop :=
  ∀ pass, Evaluation.forget (action pass) = descent.run pass.memory

namespace Erases

theorem pure (result : α) :
    Erases (Pure.pure result : Evaluation σ N α) (Pure.pure result) :=
  fun _ => rfl

theorem throw (error : Error) :
    Erases (MonadExcept.throw error : Evaluation σ N α)
      (MonadExcept.throw error) :=
  fun _ => rfl

theorem ofExcept (outcome : Except Error α) :
    Erases (Evaluation.ofExcept outcome : Evaluation σ N α)
      (Descent.ofExcept outcome) := by
  intro pass
  cases outcome <;> rfl

theorem bind {action : Evaluation σ N α} {descent : Descent σ N α}
    {next : α → Evaluation σ N β} {onward : α → Descent σ N β}
    (first : Erases action descent)
    (later : ∀ result, Erases (next result) (onward result)) :
    Erases (action >>= next) (descent >>= onward) := by
  intro pass
  have same := first pass
  rw [Descent.run_bind, ← same]
  simp only [Bind.bind, EStateM.bind]
  cases action pass with
  | ok result pass => exact later result pass
  | error error pass => rfl

theorem map_ofExcept (change : α → β) (outcome : Except Error α) :
    Erases (change <$> Evaluation.ofExcept outcome : Evaluation σ N β)
      (Descent.ofExcept (change <$> outcome)) := by
  intro pass
  cases outcome <;> rfl

theorem get {next : Pass σ N → Evaluation σ N α}
    {onward : Memory σ N → Descent σ N α}
    (later : ∀ pass, Erases (next pass) (onward pass.memory)) :
    Erases (MonadState.get >>= next) (MonadState.get >>= onward) := by
  intro pass
  exact later pass pass

theorem mark (step : Mark) :
    Erases (Evaluation.mark step : Evaluation σ N Unit) (Pure.pure ()) :=
  fun _ => rfl

theorem apply (computation : Computation σ N) (arguments : List (Evaluated N)) :
    Erases (Evaluation.apply computation arguments)
      (Descent.apply computation arguments) := by
  intro pass
  have descended : (Descent.apply computation arguments).run pass.memory =
      (((computation arguments).run pass.world).1,
        ⟨pass.store, ((computation arguments).run pass.world).2⟩) := rfl
  rw [descended]
  simp only [Evaluation.apply]
  cases (computation arguments).run pass.world with
  | mk outcome world => cases outcome <;> rfl

theorem mapM {action : β → Evaluation σ N α} {descent : β → Descent σ N α}
    (each : ∀ item, Erases (action item) (descent item)) (items : List β) :
    Erases (items.mapM action) (items.mapM descent) :=
  related_mapM (fun action descent => Erases action descent) pure bind items
    fun item _ => each item

theorem close (path : Path) (result : Evaluated N) :
    Erases (do
        Evaluation.close result path
        return result : Evaluation σ N (Evaluated N))
      (Descent.accept true path result) := by
  intro pass
  cases result with
  | plain value => rfl
  | shaped shape =>
      cases isField : path.isField <;>
        simp only [Evaluation.close, Descent.accept, isField] <;> rfl

end Erases

namespace Evaluator

theorem erases_toValue {action : Evaluation σ N (Evaluated N)}
    {descent : Descent σ N (Evaluated N)} (context : String)
    (erased : Erases action descent) :
    Erases
      (do
        let result ← action
        Evaluation.ofExcept (result.toValue context))
      (Descent.plain context descent) :=
  erased.bind fun result => Erases.ofExcept (result.toValue context)

variable [Scalar N] {evaluator : Evaluator σ N} {overrides : Overrides N}

theorem erases_evalExpr_succ {budget : Nat}
    (exprs : ∀ expr, Erases (evaluator.evalExpr overrides budget expr)
      (evaluator.descendExpr overrides true budget expr))
    (paths : ∀ path, Erases (evaluator.visit overrides budget path)
      (evaluator.descendPath overrides true budget path)) (expr : Expr) :
    Erases (evaluator.evalExpr overrides (budget + 1) expr)
      (evaluator.descendExpr overrides true (budget + 1) expr) := by
  cases expr using Expr.byForm with
  | leaf expr leaf =>
      rw [evalExpr_leaf leaf, descendExpr_leaf leaf]
      exact Erases.ofExcept _
  | unary op operand =>
      have value := erases_toValue "unary operand" (exprs operand)
      have applied := value.bind fun value =>
        Erases.map_ofExcept Evaluated.plain (op.apply value)
      simpa only [evalExpr, descendExpr, bind_assoc] using applied
  | binary op left right =>
      have leftValue := erases_toValue ("operand of '" ++ op.symbol ++ "'")
        (exprs left)
      have rightValue := erases_toValue ("operand of '" ++ op.symbol ++ "'")
        (exprs right)
      have applied := leftValue.bind fun left => rightValue.bind fun right =>
        Erases.map_ofExcept Evaluated.plain (op.apply left right)
      simpa only [evalExpr, descendExpr, bind_assoc] using applied
  | computation name arguments =>
      simp only [evalExpr, descendExpr]
      cases evaluator.computations.get? name with
      | none => exact Erases.throw _
      | some computation =>
          exact (Erases.mapM exprs arguments).bind fun results =>
            Erases.apply computation results
  | reference path => exact paths path

theorem erases_complete {budget : Nat}
    (exprs : ∀ expr, Erases (evaluator.evalExpr overrides budget expr)
      (evaluator.descendExpr overrides true budget expr)) (path : Path)
    (expr : Expr) :
    Erases (evaluator.complete overrides budget path expr) (do
      let result ← evaluator.descendExpr overrides true budget expr
      Descent.accept true path result) := by
  unfold complete
  split
  case h_1 => exact Erases.throw _
  case h_2 =>
    exact (Erases.mark (.opened path)).bind fun _ =>
      (exprs expr).bind (Erases.close path)

theorem erases_visitProperty {budget : Nat} (path : Path)
    (paths : ∀ path, Erases (evaluator.visit overrides budget path)
      (evaluator.descendPath overrides true budget path)) (name : String) :
    Erases (evaluator.visitProperty overrides budget path name)
      (evaluator.descendProperty overrides true budget path name) := by
  have value := erases_toValue
    (Path.property path.object path.fieldName name).text
    (paths (.property path.object path.fieldName name))
  have named := value.bind fun value => Erases.pure (name, value)
  simpa only [visitProperty, descendProperty, bind_assoc] using named

theorem erases_visit_succ {budget : Nat}
    (exprs : ∀ expr, Erases (evaluator.evalExpr overrides budget expr)
      (evaluator.descendExpr overrides true budget expr))
    (paths : ∀ path, Erases (evaluator.visit overrides budget path)
      (evaluator.descendPath overrides true budget path)) (path : Path) :
    Erases (evaluator.visit overrides (budget + 1) path)
      (evaluator.descendPath overrides true (budget + 1) path) := by
  rw [visit_succ, descendPath]
  apply Erases.get
  intro pass
  apply (Erases.ofExcept _).bind
  intro wanted
  cases wanted with
  | ready value => exact Erases.pure _
  | evaluate expr => exact erases_complete exprs path expr
  | assemble kind names =>
      have properties :=
        Erases.mapM (erases_visitProperty path paths) names
      exact properties.bind fun _ => Erases.pure _

variable (evaluator overrides) in
theorem erases_evalExpr_visit (budget : Nat) :
    (∀ expr, Erases (evaluator.evalExpr overrides budget expr)
      (evaluator.descendExpr overrides true budget expr)) ∧
    (∀ path, Erases (evaluator.visit overrides budget path)
      (evaluator.descendPath overrides true budget path)) := by
  induction budget with
  | zero => exact ⟨fun _ => Erases.throw _, fun _ => Erases.throw _⟩
  | succ budget induction =>
      obtain ⟨exprs, paths⟩ := induction
      constructor
      · exact erases_evalExpr_succ exprs paths
      · exact erases_visit_succ exprs paths

theorem forget_evalExprAt (depth : Nat) (expr : Expr) (pass : Pass σ N) :
    Evaluation.forget (evaluator.evalExprAt overrides depth expr pass) =
      (evaluator.descendExpr overrides true (evaluator.limit - depth)
        expr).run pass.memory :=
  (evaluator.erases_evalExpr_visit overrides
    (evaluator.limit - depth)).1 expr pass

theorem forget_evalPathAt (depth : Nat) (path : Path) (pass : Pass σ N) :
    Evaluation.forget (evaluator.evalPathAt overrides depth path pass) =
      (evaluator.descendPath overrides true (evaluator.limit - depth)
        path).run pass.memory :=
  (evaluator.erases_evalExpr_visit overrides
    (evaluator.limit - depth)).2 path pass

end Evaluator

/-- A field that refers to a property, which refers to another field. -/
def Store.linked (target : Slot Float) : Store Float :=
  let link := Content.symbolic (.reference (.field "A" "target"))
  (((Store.empty.declare "A").bind "A" "start"
    (.scalar (.symbolic (.reference (.property "A" "box" "link"))))).bind
    "A" "box" (.shape "Box" (Table.empty.insert "link" link))).bind
    "A" "target" target

end DiagramEnergy
