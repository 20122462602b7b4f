import DiagramEnergy.Proofs.Evaluation.Loop
import DiagramEnergy.Proofs.Evaluation.Triple
import DiagramEnergy.Proofs.Numbers.Change
import Mathlib.Data.List.Forall2

/-!
# Evaluation over changed numbers

An evaluation over changed numbers does the same as the original one: the same
result up to the change, the same error, and a store that is changed in the same
way.  This takes functions that do so themselves.  The evaluation over changed
numbers may also be allowed to give up with certain errors.
-/

namespace DiagramEnergy

variable {σ M N : Type} {α β γ δ : Type}

/-- The second outcome is the first one after a change, or it is an error that
is excused. -/
def Mirrors (excused : Error → Prop) (change : α → β)
    (first : Except Error α) (second : Except Error β) : Prop :=
  second = change <$> first ∨ ∃ error, second = .error error ∧ excused error

namespace Mirrors

variable {excused : Error → Prop} {change : α → β} {first : Except Error α}
  {second : Except Error β}

theorem of_eq (same : second = change <$> first) :
    Mirrors excused change first second :=
  .inl same

theorem ok {result : α} :
    Mirrors excused change (.ok result) (.ok (change result)) :=
  .inl rfl

theorem error (failure : Error) :
    Mirrors excused change (.error failure) (.error failure) :=
  .inl rfl

theorem bind {convert : γ → δ} {next : α → Except Error γ}
    {onward : β → Except Error δ}
    (mirrors : Mirrors excused change first second)
    (later : ∀ result, first = .ok result →
      Mirrors excused convert (next result) (onward (change result))) :
    Mirrors excused convert (first >>= next) (second >>= onward) := by
  rcases mirrors with rfl | ⟨failure, rfl, excuse⟩
  · cases first with
    | error failure => exact error failure
    | ok result => exact later result rfl
  · exact .inr ⟨failure, rfl, excuse⟩

theorem eq_of_not_excused (mirrors : Mirrors excused change first second)
    (serious : ∀ failure, second = .error failure → ¬ excused failure) :
    second = change <$> first := by
  rcases mirrors with same | ⟨failure, failed, excuse⟩
  · exact same
  · exact absurd excuse (serious failure failed)

end Mirrors

def Memory.mapFloat (change : N → M) (memory : Memory σ N) : Memory σ M :=
  ⟨memory.store.mapFloat change, memory.world⟩

def Pass.mapFloat (change : N → M) (pass : Pass σ N) : Pass σ M :=
  ⟨pass.store.mapFloat change, pass.world, pass.trail⟩

/-- From every memory after a change, the second descent ends as the first one
does from that memory, after a change, or gives up with an excused error. -/
def MirrorsRun (excused : Error → Prop) (change : N → M) (convert : α → β)
    (first : Descent σ N α) (second : Descent σ M β) : Prop :=
  ∀ memory,
    second.run (memory.mapFloat change) =
      (convert <$> (first.run memory).1,
        (first.run memory).2.mapFloat change) ∨
    ∃ error, (second.run (memory.mapFloat change)).1 = .error error ∧
      excused error

namespace MirrorsRun

variable {excused : Error → Prop} {change : N → M} {convert : α → β}
  {first : Descent σ N α} {second : Descent σ M β}

theorem outcome (mirrors : MirrorsRun excused change convert first second)
    (memory : Memory σ N) :
    Mirrors excused convert (first.run memory).1
      (second.run (memory.mapFloat change)).1 := by
  rcases mirrors memory with same | excuse
  · exact .inl (congrArg Prod.fst same)
  · exact .inr excuse

theorem pure (result : α) :
    MirrorsRun excused change convert (Pure.pure result : Descent σ N α)
      (Pure.pure (convert result)) :=
  fun _ => .inl rfl

theorem throw (error : Error) :
    MirrorsRun excused change convert
      (MonadExcept.throw error : Descent σ N α) (MonadExcept.throw error) :=
  fun _ => .inl rfl

theorem ofExcept {first : Except Error α} {second : Except Error β}
    (mirrors : Mirrors excused convert first second) :
    MirrorsRun excused change convert
      (Descent.ofExcept first : Descent σ N α) (Descent.ofExcept second) := by
  intro memory
  rw [Descent.run_ofExcept, Descent.run_ofExcept]
  rcases mirrors with rfl | excuse
  · exact .inl rfl
  · exact .inr excuse

theorem bind {turn : γ → δ} {next : α → Descent σ N γ}
    {onward : β → Descent σ M δ}
    (mirrors : MirrorsRun excused change convert first second)
    (later : ∀ result, MirrorsRun excused change turn (next result)
      (onward (convert result))) :
    MirrorsRun excused change turn (first >>= next) (second >>= onward) := by
  intro memory
  rw [Descent.run_bind, Descent.run_bind]
  rcases mirrors memory with same | ⟨error, failed, excuse⟩
  · rw [same]
    cases ran : first.run memory with
    | mk outcome middle =>
        cases outcome with
        | error error => exact .inl rfl
        | ok result => exact later result middle
  · cases ran : second.run (memory.mapFloat change) with
    | mk outcome middle =>
        rw [ran] at failed
        cases failed
        exact .inr ⟨error, rfl, excuse⟩

theorem mapM (items : List γ) {first : γ → Descent σ N α}
    {second : γ → Descent σ M β}
    (each : ∀ item ∈ items,
      MirrorsRun excused change convert (first item) (second item)) :
    MirrorsRun excused change (List.map convert) (items.mapM first)
      (items.mapM second) := by
  induction items with
  | nil =>
      rw [List.mapM_nil, List.mapM_nil]
      exact pure []
  | cons item items induction =>
      rw [List.mapM_cons, List.mapM_cons]
      have rest := induction fun other member => each other (by simp [member])
      apply bind (each item (by simp))
      intro result
      apply bind rest
      intro results
      exact pure (result :: results)

theorem plain {first : Descent σ N (Evaluated N)}
    {second : Descent σ M (Evaluated M)} (context : String)
    (mirrors : MirrorsRun excused change (Evaluated.mapFloat change) first
      second) :
    MirrorsRun excused change (Value.mapFloat change)
      (Descent.plain context first) (Descent.plain context second) :=
  mirrors.bind fun result =>
    ofExcept (.of_eq (result.toValue_mapFloat change context))

theorem accept (caching : Bool) (path : Path) (result : Evaluated N) :
    MirrorsRun excused change (Evaluated.mapFloat change)
      (Descent.accept caching path result : Descent σ N (Evaluated N))
      (Descent.accept caching path (result.mapFloat change)) := by
  intro memory
  rw [Descent.run_accept, Descent.run_accept]
  cases result with
  | shaped shape =>
      simp only [Evaluated.mapFloat, Shape.name_mapFloat]
      split
      · exact .inl rfl
      · exact .inl rfl
  | plain value =>
      cases caching with
      | false => exact .inl rfl
      | true =>
          have cached := memory.store.mapFloat_cacheValue change path value
          exact .inl (congrArg (fun store => (Except.ok _, Memory.mk store _))
            cached.symm)

end MirrorsRun

/-! ## Functions that mirror one another -/

section Functions

variable (excused : Error → Prop) (change : N → M)

def Computation.Mirrors (first : Computation σ N)
    (second : Computation σ M) : Prop :=
  ∀ arguments, MirrorsRun excused change (Evaluated.mapFloat change)
    (Descent.apply first arguments)
    (Descent.apply second (arguments.map (Evaluated.mapFloat change)))

def Score.Mirrors (first : Score N) (second : Score M) : Prop :=
  ∀ arguments, DiagramEnergy.Mirrors excused change (first arguments)
    (second (arguments.map (Evaluated.mapFloat change)))

/-- Tables that bind the same names, to values in a relation. -/
def Table.Related (relation : α → β → Prop) (first : Table String α)
    (second : Table String β) : Prop :=
  ∀ name, Option.Rel relation (first.get? name) (second.get? name)

def Computations.Mirrors (first : Computations σ N)
    (second : Computations σ M) : Prop :=
  Table.Related (Computation.Mirrors excused change) first second

structure ScoreTable.Mirrors (first : ScoreTable N)
    (second : ScoreTable M) : Prop where
  role : second.role = first.role
  functions : Table.Related (fun registered other =>
    other.1 = registered.1 ∧ Score.Mirrors excused change registered.2 other.2)
    first.functions second.functions

structure Registries.Mirrors (first : Registries σ N)
    (second : Registries σ M) : Prop where
  computations : Computations.Mirrors excused change first.computations
    second.computations
  objectives : ScoreTable.Mirrors excused change first.objectives
    second.objectives
  constraints : ScoreTable.Mirrors excused change first.constraints
    second.constraints

end Functions

namespace Table.Related

variable {relation : α → β → Prop}

theorem empty :
    Related relation (Table.empty : Table String α) Table.empty :=
  fun _ => .none

theorem imp {first : Table String α} {second : Table String β}
    {weaker : α → β → Prop} (related : Related relation first second)
    (implies : ∀ left right, relation left right → weaker left right) :
    Related weaker first second := by
  intro name
  have bound := related name
  generalize first.get? name = left at bound ⊢
  generalize second.get? name = right at bound ⊢
  cases bound with
  | none => exact .none
  | some holds => exact .some (implies _ _ holds)

theorem insert {first : Table String α} {second : Table String β}
    (related : Related relation first second) {left : α} {right : β}
    (name : String) (entry : relation left right) :
    Related relation (first.insert name left) (second.insert name right) := by
  intro other
  rw [get?_insert, get?_insert]
  split
  · exact .some entry
  · exact related other

theorem ofList {first : List (String × α)} {second : List (String × β)}
    (entries : List.Forall₂ (fun left right =>
      left.1 = right.1 ∧ relation left.2 right.2) first second) :
    Related relation (Table.ofList first) (Table.ofList second) := by
  have each : ∀ (left : Table String α) (right : Table String β),
      Related relation left right →
      Related relation
        (first.foldl (fun table entry => table.insert entry.1 entry.2) left)
        (second.foldl (fun table entry => table.insert entry.1 entry.2)
          right) := by
    induction entries with
    | nil => exact fun _ _ related => related
    | @cons left right _ _ entry _ induction =>
        obtain ⟨name, value⟩ := left
        obtain ⟨_, other⟩ := right
        obtain ⟨rfl, holds⟩ := entry
        intro leftTable rightTable related
        exact induction _ _ (related.insert name holds)
  exact each _ _ empty

end Table.Related

theorem Computation.mirrors_ofFunction {excused : Error → Prop}
    {change : N → M} {first : List (Evaluated N) → Except Error (Evaluated N)}
    {second : List (Evaluated M) → Except Error (Evaluated M)}
    (mirrors : ∀ arguments,
      DiagramEnergy.Mirrors excused (Evaluated.mapFloat change)
        (first arguments)
        (second (arguments.map (Evaluated.mapFloat change)))) :
    Computation.Mirrors excused change (.ofFunction first : Computation σ N)
      (.ofFunction second) := by
  intro arguments memory
  rcases mirrors arguments with same | excuse
  · exact .inl (congrArg (fun outcome => (outcome, _)) same)
  · exact .inr excuse

/-! ## Operators -/

section Operators

variable [Scalar M] [Scalar N] {change : N → M}
  (carries : Scalar.Carries change)

include carries

theorem Expr.literal_mapFloat (expr : Expr) :
    (expr.literal : Except Error (Evaluated M)) =
      Evaluated.mapFloat change <$> expr.literal := by
  cases expr with
  | float number =>
      simp only [literal, ← carries.ofFloat number]
      rfl
  | _ => rfl

theorem UnaryOp.apply_mapFloat (op : UnaryOp) (operand : Value N) :
    op.apply (operand.mapFloat change) =
      Value.mapFloat change <$> op.apply operand := by
  cases operand with
  | float number =>
      cases op with
      | plus => rfl
      | minus =>
          exact congrArg (Except.ok ∘ Value.float) (carries.neg number).symm
  | int number =>
      cases op with
      | plus => rfl
      | minus =>
          simp only [Value.mapFloat, apply]
          cases Integer.negate number <;> rfl
  | bool truth => cases op <;> rfl
  | str text => cases op <;> rfl
  | color parts => cases op <;> rfl

theorem Scalar.operate_map (op : BinaryOp) (left right : N) :
    Scalar.operate op (change left) (change right) =
      change <$> Scalar.operate op left right := by
  cases op with
  | add => exact congrArg Except.ok (carries.add left right).symm
  | subtract => exact congrArg Except.ok (carries.sub left right).symm
  | multiply => exact congrArg Except.ok (carries.mul left right).symm
  | power => exact congrArg Except.ok (carries.pow left right).symm
  | divide =>
      simp only [operate, carries.isZero, carries.value]
      split
      · rfl
      · exact congrArg Except.ok (carries.div left right).symm

theorem BinaryOp.apply_mapFloat (op : BinaryOp) (left right : Value N) :
    op.apply (left.mapFloat change) (right.mapFloat change) =
      Value.mapFloat change <$> op.apply left right := by
  cases left <;> cases right
  case float.float left right =>
    simp only [Value.mapFloat, apply, Scalar.operate_map carries]
    cases Scalar.operate op left right <;> rfl
  case int.int left right =>
    simp only [Value.mapFloat, apply]
    cases Integer.operate op left right <;> rfl
  all_goals rfl

end Operators

/-! ## Descents -/

namespace Evaluator

variable [Scalar M] [Scalar N] {excused : Error → Prop} {change : N → M}
  {first : Evaluator σ N} {second : Evaluator σ M} {overrides : Overrides N}
  {caching : Bool} {budget : Nat}

theorem mirrors_descendExpr_succ (carries : Scalar.Carries change)
    (computations : Computations.Mirrors excused change first.computations
      second.computations)
    (exprs : ∀ expr, MirrorsRun excused change (Evaluated.mapFloat change)
      (first.descendExpr overrides caching budget expr)
      (second.descendExpr (overrides.mapFloat change) caching budget expr))
    (paths : ∀ path, MirrorsRun excused change (Evaluated.mapFloat change)
      (first.descendPath overrides caching budget path)
      (second.descendPath (overrides.mapFloat change) caching budget path))
    (expr : Expr) :
    MirrorsRun excused change (Evaluated.mapFloat change)
      (first.descendExpr overrides caching (budget + 1) expr)
      (second.descendExpr (overrides.mapFloat change) caching (budget + 1)
        expr) := by
  cases expr using Expr.byForm with
  | leaf expr leaf =>
      rw [descendExpr_leaf leaf, descendExpr_leaf leaf]
      exact .ofExcept (.of_eq (expr.literal_mapFloat carries))
  | unary op operand =>
      apply ((exprs operand).plain _).bind
      intro value
      apply MirrorsRun.ofExcept
      apply Mirrors.of_eq
      rw [op.apply_mapFloat carries]
      cases op.apply value <;> rfl
  | binary op left right =>
      apply ((exprs left).plain _).bind
      intro leftValue
      apply ((exprs right).plain _).bind
      intro rightValue
      apply MirrorsRun.ofExcept
      apply Mirrors.of_eq
      rw [op.apply_mapFloat carries]
      cases op.apply leftValue rightValue <;> rfl
  | computation name arguments =>
      simp only [descendExpr]
      have registered := computations name
      cases found : first.computations.get? name with
      | none =>
          cases other : second.computations.get? name with
          | none => exact .throw _
          | some computation =>
              rw [found, other] at registered
              cases registered
      | some computation =>
          cases other : second.computations.get? name with
          | none =>
              rw [found, other] at registered
              cases registered
          | some counterpart =>
              rw [found, other] at registered
              cases registered with
              | some mirrors =>
                  have results := MirrorsRun.mapM arguments fun argument _ =>
                    exprs argument
                  exact results.bind mirrors
  | reference path => exact paths path

/-- A named value after a change. -/
def changeEntry (change : N → M) (entry : String × Value N) :
    String × Value M :=
  (entry.1, entry.2.mapFloat change)

theorem mirrors_meet
    (exprs : ∀ expr, MirrorsRun excused change (Evaluated.mapFloat change)
      (first.descendExpr overrides caching budget expr)
      (second.descendExpr (overrides.mapFloat change) caching budget expr))
    (paths : ∀ path, MirrorsRun excused change (Evaluated.mapFloat change)
      (first.descendPath overrides caching budget path)
      (second.descendPath (overrides.mapFloat change) caching budget path))
    (path : Path) (asked : Except Error (Demand N)) :
    MirrorsRun excused change (Evaluated.mapFloat change)
      (first.meet overrides caching budget path asked)
      (second.meet (overrides.mapFloat change) caching budget path
        (Demand.mapFloat change <$> asked)) := by
  cases asked with
  | error error => exact MirrorsRun.throw error
  | ok wanted =>
      cases wanted with
      | ready value => exact MirrorsRun.pure (Evaluated.plain value)
      | evaluate expr =>
          exact (exprs expr).bind (MirrorsRun.accept caching path)
      | assemble kind names =>
          have parts : ∀ name ∈ names,
              MirrorsRun excused change (changeEntry change)
                (first.descendProperty overrides caching budget path name)
                (second.descendProperty (overrides.mapFloat change) caching
                  budget path name) := by
            intro name _
            apply ((paths _).plain _).bind
            intro value
            exact MirrorsRun.pure (name, value)
          apply (MirrorsRun.mapM names parts).bind
          intro values
          have assembled := Shape.mapFloat_assembled change path kind values
          have shaped : Evaluated.mapFloat change
              (.shaped (.assembled path kind values)) =
                .shaped (.assembled path kind
                  (values.map (changeEntry change))) :=
            congrArg Evaluated.shaped assembled
          rw [← shaped]
          exact MirrorsRun.pure _

/-- Evaluators with the same budget, and with computations that mirror one
another, evaluate everything alike. -/
theorem mirrors_descend (carries : Scalar.Carries change)
    (computations : Computations.Mirrors excused change first.computations
      second.computations)
    (sameLimit : second.limit = first.limit) (overrides : Overrides N)
    (caching : Bool) (budget : Nat) :
    (∀ expr, MirrorsRun excused change (Evaluated.mapFloat change)
      (first.descendExpr overrides caching budget expr)
      (second.descendExpr (overrides.mapFloat change) caching budget expr)) ∧
    (∀ path, MirrorsRun excused change (Evaluated.mapFloat change)
      (first.descendPath overrides caching budget path)
      (second.descendPath (overrides.mapFloat change) caching budget
        path)) := by
  have exceeded : second.exceeded = first.exceeded := by
    funext context
    simp only [Evaluator.exceeded, sameLimit]
  induction budget with
  | zero =>
      constructor
      · intro expr
        simp only [descendExpr, exceeded]
        exact .throw _
      · intro path
        simp only [descendPath, exceeded]
        exact .throw _
  | succ budget induction =>
      obtain ⟨exprs, paths⟩ := induction
      constructor
      · exact mirrors_descendExpr_succ carries computations exprs paths
      · intro path memory
        rw [run_descendPath, run_descendPath]
        have asked : (memory.mapFloat change).store.demand
            (overrides.mapFloat change) path =
              Demand.mapFloat change <$> memory.store.demand overrides path :=
          memory.store.demand_mapFloat change overrides path
        rw [asked]
        exact mirrors_meet exprs paths path _ memory

end Evaluator

end DiagramEnergy
