import DiagramEnergy.Proofs.Evaluation.Triple

/-!
# How evaluation fails

Evaluation has eight errors of its own.  Main statement: every other error comes
from a registered computation, so whatever is true of these errors and of all
errors of computations is true of the errors of every evaluation.
-/

namespace DiagramEnergy

variable {σ N α β : Type}

/-- The errors that evaluation ends with on its own account. -/
def Error.IsEvaluation : Error → Prop
  | .unknownObject _ => True
  | .unknownPath _ => True
  | .typeMismatch _ _ => True
  | .divisionByZero _ => True
  | .integerOverflow _ => True
  | .unknownComputation _ => True
  | .unsupported _ => True
  | .recursionLimit _ _ => True
  | _ => False

namespace Except

/-- An outcome whose error, if it is one, is of one sort. -/
def FailsWith (sort : Error → Prop) : Except Error α → Prop
  | .ok _ => True
  | .error error => sort error

variable {sort : Error → Prop}

theorem FailsWith.mono {weaker : Error → Prop} {outcome : Except Error α}
    (fails : FailsWith sort outcome) (weaken : ∀ error, sort error → weaker error) :
    FailsWith weaker outcome := by
  cases outcome with
  | ok result => trivial
  | error error => exact weaken error fails

theorem FailsWith.of_ne {ι κ : Type} {bad : ι → κ → Error}
    {outcome : Except Error α} (never : ∀ first second,
      outcome ≠ .error (bad first second)) :
    FailsWith (fun error => ∀ first second, error ≠ bad first second) outcome := by
  cases outcome with
  | ok result => trivial
  | error error =>
      rintro first second rfl
      exact never first second rfl

theorem FailsWith.map {outcome : Except Error α} (change : α → β)
    (fails : FailsWith sort outcome) : FailsWith sort (change <$> outcome) := by
  cases outcome with
  | ok result => trivial
  | error error => exact fails

theorem FailsWith.bind {outcome : Except Error α} {next : α → Except Error β}
    (first : FailsWith sort outcome)
    (later : ∀ result, FailsWith sort (next result)) :
    FailsWith sort (outcome >>= next) := by
  cases outcome with
  | ok result => exact later result
  | error error => exact first

end Except

open DiagramEnergy.Except (FailsWith)

/-- All errors of a computation are of one sort. -/
def Computation.FailsWith (sort : Error → Prop) (computation : Computation σ N) :
    Prop :=
  ∀ arguments world, Except.FailsWith sort ((computation arguments).run world).1

def Computations.FailWith (sort : Error → Prop)
    (computations : Computations σ N) : Prop :=
  ∀ name computation, computations.get? name = some computation →
    computation.FailsWith sort

/-! ## Errors of single steps -/

theorem Integer.failsWith_ofExact (context : String) (exact : Int) :
    FailsWith Error.IsEvaluation (Integer.ofExact context exact) := by
  unfold ofExact
  split <;> trivial

theorem Integer.failsWith_operate (op : BinaryOp) (left right : Int64) :
    FailsWith Error.IsEvaluation (Integer.operate op left right) := by
  cases op with
  | divide =>
      simp only [operate]
      split
      · trivial
      · exact failsWith_ofExact _ _
  | power =>
      simp only [operate]
      split
      · trivial
      · simp only [power]
        repeat' split
        all_goals first | trivial | exact failsWith_ofExact _ _
  | _ => exact failsWith_ofExact _ _

section Steps

variable [Scalar N]

theorem Scalar.failsWith_operate (op : BinaryOp) (left right : N) :
    FailsWith Error.IsEvaluation (Scalar.operate op left right) := by
  cases op with
  | divide =>
      simp only [operate]
      split <;> trivial
  | _ => trivial

theorem UnaryOp.failsWith_apply (op : UnaryOp) (operand : Value N) :
    FailsWith Error.IsEvaluation (op.apply operand) := by
  cases op with
  | plus => cases operand <;> trivial
  | minus =>
      cases operand with
      | int number => exact (Integer.failsWith_ofExact _ _).map _
      | _ => trivial

theorem BinaryOp.failsWith_apply (op : BinaryOp) (left right : Value N) :
    FailsWith Error.IsEvaluation (op.apply left right) := by
  cases left with
  | float left =>
      cases right with
      | float right => exact (Scalar.failsWith_operate op left right).map _
      | _ => trivial
  | int left =>
      cases right with
      | int right => exact (Integer.failsWith_operate op left right).map _
      | _ => trivial
  | _ => cases right <;> trivial

theorem Expr.failsWith_literal (expr : Expr) :
    FailsWith Error.IsEvaluation (expr.literal : Except Error (Evaluated N)) := by
  cases expr <;> trivial

end Steps

theorem Evaluated.failsWith_toValue (result : Evaluated N) (context : String) :
    FailsWith Error.IsEvaluation (result.toValue context) := by
  cases result <;> trivial

theorem Store.failsWith_demand (store : Store N) (overrides : Overrides N)
    (path : Path) :
    FailsWith Error.IsEvaluation (store.demand overrides path) := by
  have vacant : (store.vacancy path).IsEvaluation := by
    unfold vacancy
    repeat' split
    all_goals trivial
  cases overridden : overrides.get? path with
  | some number => rw [demand_override overridden]; trivial
  | none =>
      rw [demand_of_not_overridden overridden]
      split
      · trivial
      · unfold assembly
        split
        · trivial
        · exact vacant

/-! ## Errors of descents -/

/-- Whatever a descent starts from, its errors are of one sort. -/
def Raises (sort : Error → Prop) (action : Descent σ N α) : Prop :=
  Ensures (fun _ => True) action fun outcome _ => FailsWith sort outcome

namespace Raises

variable {sort : Error → Prop}

theorem pure (result : α) : Raises sort (Pure.pure result : Descent σ N α) :=
  Ensures.pure fun _ _ => trivial

theorem throw {error : Error} (fits : sort error) :
    Raises sort (MonadExcept.throw error : Descent σ N α) :=
  Ensures.throw fun _ _ => fits

theorem ofExcept {outcome : Except Error α} (fails : FailsWith sort outcome) :
    Raises sort (Descent.ofExcept outcome : Descent σ N α) :=
  Ensures.ofExcept fun _ _ => fails

theorem bind {action : Descent σ N α} {next : α → Descent σ N β}
    (first : Raises sort action) (later : ∀ result, Raises sort (next result)) :
    Raises sort (action >>= next) :=
  Ensures.bind first later fun _ _ fails => fails

theorem mapM (items : List β) {action : β → Descent σ N α}
    (each : ∀ item, Raises sort (action item)) :
    Raises sort (items.mapM action) :=
  @related_mapM (Descent σ N) (Descent σ N) _ _ _ _
    (fun action _ => Raises sort action) pure bind _ _ items action action
    fun item _ => each item

theorem apply {computation : Computation σ N}
    (fails : computation.FailsWith sort) (arguments : List (Evaluated N)) :
    Raises sort (Descent.apply computation arguments) :=
  fun memory _ => fails arguments memory.world

variable (own : ∀ error : Error, error.IsEvaluation → sort error)
include own

theorem plain (context : String) {action : Descent σ N (Evaluated N)}
    (raises : Raises sort action) :
    Raises sort (Descent.plain context action) :=
  raises.bind fun result =>
    ofExcept ((result.failsWith_toValue context).mono own)

theorem accept (caching : Bool) (path : Path) (result : Evaluated N) :
    Raises sort (Descent.accept caching path result : Descent σ N (Evaluated N)) := by
  intro memory _
  rw [Descent.run_accept]
  cases result with
  | plain value => trivial
  | shaped shape =>
      simp only
      split
      · trivial
      · exact own _ trivial

end Raises

namespace Evaluator

variable [Scalar N] {evaluator : Evaluator σ N} {sort : Error → Prop}

/-- By induction on the budget: every step has errors of its own, or those of
the steps below it, or those of a computation. -/
theorem raises_descend
    (own : ∀ error : Error, error.IsEvaluation → sort error)
    (called : evaluator.computations.FailWith sort) (overrides : Overrides N)
    (caching : Bool) (budget : Nat) :
    (∀ expr, Raises sort
      (evaluator.descendExpr overrides caching budget expr)) ∧
    ∀ path, Raises sort
      (evaluator.descendPath overrides caching budget path) := by
  induction budget with
  | zero => exact ⟨fun _ => .throw (own _ trivial), fun _ => .throw (own _ trivial)⟩
  | succ budget induction =>
      obtain ⟨exprs, paths⟩ := induction
      constructor
      · intro expr
        cases expr using Expr.byForm with
        | leaf expr leaf =>
            rw [descendExpr_leaf leaf]
            exact .ofExcept (expr.failsWith_literal.mono own)
        | unary op operand =>
            exact ((exprs operand).plain own _).bind fun value =>
              .ofExcept (((op.failsWith_apply value).map _).mono own)
        | binary op left right =>
            exact ((exprs left).plain own _).bind fun first =>
              ((exprs right).plain own _).bind fun second =>
                .ofExcept (((op.failsWith_apply first second).map _).mono own)
        | computation name arguments =>
            simp only [descendExpr]
            cases found : evaluator.computations.get? name with
            | none => exact .throw (own _ trivial)
            | some computation =>
                exact (Raises.mapM arguments exprs).bind fun results =>
                  .apply (called name computation found) results
        | reference path => exact paths path
      · intro path memory _
        rw [run_descendPath]
        have demanded := memory.store.failsWith_demand overrides path
        cases asked : memory.store.demand overrides path with
        | error error =>
            rw [asked] at demanded
            exact own error demanded
        | ok demand =>
            cases demand with
            | ready value => trivial
            | evaluate expr =>
                exact ((exprs expr).bind fun result =>
                  .accept own caching path result) memory trivial
            | assemble kind names =>
                have properties : ∀ name, Raises sort
                    (evaluator.descendProperty overrides caching budget path
                      name) := fun name =>
                  ((paths _).plain own _).bind fun value => .pure (name, value)
                exact ((Raises.mapM names properties).bind fun values =>
                  .pure _) memory trivial

end Evaluator

end DiagramEnergy
