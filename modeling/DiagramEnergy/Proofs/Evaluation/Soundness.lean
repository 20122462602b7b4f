import DiagramEnergy.Proofs.Evaluation.Adequacy
import DiagramEnergy.Proofs.Evaluation.Triple
import DiagramEnergy.Proofs.Store.Filling

/-!
# Memories hold what evaluation by name gives

A store remembers an evaluation if each content that has been filled since the
start holds what its slot evaluates to by name on the store of the start.
Descents from such a store keep it that way, also when they fail, and their
outcomes are those of evaluation by name as long as the budget lasts.
-/

namespace DiagramEnergy

variable {σ N : Type}

def Error.isLimit : Error → Bool
  | .recursionLimit _ _ => true
  | _ => false

/-- An outcome that may be owed to the budget. -/
def Spent {α : Type} : Except Error α → Prop
  | .ok _ => False
  | .error error => error.isLimit = true

theorem Spent.bind {α β : Type} {outcome : Except Error α}
    (spent : Spent outcome) (next : α → Except Error β) :
    Spent (outcome >>= next) := by
  cases outcome with
  | ok result => exact spent.elim
  | error error => exact spent

theorem Spent.map {α β : Type} {outcome : Except Error α}
    (spent : Spent outcome) (change : α → β) : Spent (change <$> outcome) := by
  cases outcome with
  | ok result => exact spent.elim
  | error error => exact spent

theorem Spent.of_plain {outcome : Except Error (Evaluated N)}
    {context : String} {error : Error} (spent : Spent outcome)
    (failed : ByName.plain context outcome = .error error) :
    error.isLimit = true := by
  have spentAlso : Spent (ByName.plain context outcome) := spent.bind _
  rw [failed] at spentAlso
  exact spentAlso

theorem Descent.apply_ofFunction
    (function : List (Evaluated N) → Except Error (Evaluated N))
    (arguments : List (Evaluated N)) :
    (Descent.apply (.ofFunction function) arguments : Descent σ N _) =
      Descent.ofExcept (function arguments) := by
  funext memory
  have left := Descent.run_apply_ofFunction function arguments memory
  have right := Descent.run_ofExcept (function arguments) memory
  exact left.trans right.symm

theorem Computations.arePure_empty :
    Computations.ArePure (.empty : Computations σ N) := by
  intro name computation registered
  cases registered

theorem Computations.ArePure.insert {computations : Computations σ N}
    (pureComputations : computations.ArePure) {computation : Computation σ N}
    (isPure : computation.IsPure) (name : String) :
    Computations.ArePure (computations.insert name computation) := by
  intro other found registered
  rw [Table.get?_insert] at registered
  by_cases same : other = name
  · rw [if_pos same] at registered
    cases registered
    exact isPure
  · rw [if_neg same] at registered
    exact pureComputations other found registered

namespace ByName

variable [Scalar N] (computations : Computations σ N) (overrides : Overrides N)
  (start : Store N)

/-- The rule of filling a slot with what it evaluates to at the start. -/
def denoted (path : Path) (value : Value N) : Prop :=
  Evaluates computations start overrides (.reference path)
    (.ok (.plain value))

/-- All contents that have been filled since the start hold what their slots
evaluate to by name. -/
abbrev Remembers (later : Store N) : Prop :=
  start.Filled overrides (denoted computations overrides start) later

/-- The outcome of evaluation by name, unless the budget has run out. -/
def Answers (expr : Expr) (outcome : Except Error (Evaluated N)) : Prop :=
  Spent outcome ∨ Evaluates computations start overrides expr outcome

/-- A descent that answers an expression and leaves a store that remembers. -/
def Sound (expr : Expr) (action : Descent σ N (Evaluated N)) : Prop :=
  Ensures (Remembers computations overrides start) action
    fun outcome later => Remembers computations overrides start later ∧
      Answers computations overrides start expr outcome

variable {computations overrides start}

theorem Answers.ok {expr : Expr} {result : Evaluated N}
    (answered : Answers computations overrides start expr (.ok result)) :
    Evaluates computations start overrides expr (.ok result) := by
  rcases answered with spent | evaluation
  · exact spent.elim
  · exact evaluation

omit [Scalar N] in
theorem eq_ok_of_plain {outcome : Except Error (Evaluated N)}
    {context : String} {value : Value N}
    (same : plain context outcome = .ok value) :
    outcome = .ok (.plain value) := by
  cases outcome with
  | error error => cases same
  | ok result =>
      cases result with
      | plain found =>
          cases same
          rfl
      | shaped shape => cases same

theorem Answers.unary {op : UnaryOp} {operand : Expr}
    {outcome : Except Error (Evaluated N)}
    (answered : Answers computations overrides start operand outcome) :
    Answers computations overrides start (.unary op operand) (do
      let value ← plain "unary operand" outcome
      Evaluated.plain <$> op.apply value) := by
  rcases answered with spent | evaluation
  · exact .inl ((spent.bind _).bind _)
  · exact .inr (.unary evaluation)

theorem Answers.left {op : BinaryOp} {left right : Expr} {error : Error}
    {outcome : Except Error (Evaluated N)}
    (answered : Answers computations overrides start left outcome)
    (failed : plain (operandContext op) outcome = .error error) :
    Answers computations overrides start (.binary op left right)
      (.error error) := by
  rcases answered with spent | evaluation
  · exact .inl (spent.of_plain failed)
  · exact .inr (.left evaluation failed)

theorem Answers.binary {op : BinaryOp} {left right : Expr}
    {leftValue : Value N} {outcome : Except Error (Evaluated N)}
    (first : Answers computations overrides start left
      (.ok (.plain leftValue)))
    (second : Answers computations overrides start right outcome) :
    Answers computations overrides start (.binary op left right) (do
      let rightValue ← plain (operandContext op) outcome
      Evaluated.plain <$> op.apply leftValue rightValue) := by
  rcases second with spent | evaluation
  · exact .inl ((spent.bind _).bind _)
  · exact .inr (.binary first.ok evaluation)

theorem Answers.slot {path : Path} {expr : Expr}
    {outcome : Except Error (Evaluated N)}
    (asked : start.demand overrides path = .ok (.evaluate expr))
    (answered : Answers computations overrides start expr outcome) :
    Answers computations overrides start (.reference path)
      (outcome >>= accepted path) := by
  rcases answered with spent | evaluation
  · exact .inl (spent.bind _)
  · exact .inr (.slot asked evaluation)

theorem Sound.arguments (exprs : List Expr)
    {action : Expr → Descent σ N (Evaluated N)}
    (sound : ∀ expr, Sound computations overrides start expr (action expr)) :
    Ensures (Remembers computations overrides start) (exprs.mapM action)
      fun outcome later => Remembers computations overrides start later ∧
        (Spent outcome ∨
          EvaluatesAll computations start overrides exprs outcome) := by
  induction exprs with
  | nil =>
      intro memory remembers
      exact ⟨remembers, .inr .nil⟩
  | cons expr exprs induction =>
      intro memory remembers
      have first := sound expr memory remembers
      rw [Descent.run_mapM_cons]
      cases ran : (action expr).run memory with
      | mk outcome later =>
          rw [ran] at first
          cases outcome with
          | error error =>
              refine ⟨first.1, ?_⟩
              rcases first.2 with spent | evaluation
              · exact .inl spent
              · exact .inr (.failed evaluation)
          | ok result =>
              have rest := induction later first.1
              refine ⟨rest.1, ?_⟩
              rcases rest.2 with spent | evaluation
              · exact .inl (spent.map _)
              · exact .inr (.cons first.2.ok evaluation)

theorem Sound.properties (path : Path) (names : List String)
    {action : String → Descent σ N (Evaluated N)}
    (sound : ∀ name, Sound computations overrides start
      (.reference (.property path.object path.fieldName name)) (action name)) :
    Ensures (Remembers computations overrides start)
      (names.mapM fun name => do
        let value ← .plain
          (Path.property path.object path.fieldName name).text (action name)
        return (name, value))
      fun outcome later => Remembers computations overrides start later ∧
        (Spent outcome ∨
          EvaluatesProperties computations start overrides path names
            outcome) := by
  induction names with
  | nil =>
      intro memory remembers
      exact ⟨remembers, .inr .empty⟩
  | cons name names induction =>
      intro memory remembers
      have first := sound name memory remembers
      rw [Descent.run_mapM_cons, Descent.run_map, Descent.run_plain]
      cases value : plain
          (Path.property path.object path.fieldName name).text
          ((action name).run memory).1 with
      | error error =>
          refine ⟨first.1, ?_⟩
          rcases first.2 with spent | evaluation
          · exact .inl (spent.of_plain value)
          · exact .inr (.refused evaluation value)
      | ok result =>
          have found := eq_ok_of_plain value
          rw [found] at first
          have rest := induction ((action name).run memory).2 first.1
          refine ⟨rest.1, ?_⟩
          rcases rest.2 with spent | evaluation
          · exact .inl (spent.map _)
          · exact .inr (.property first.2.ok evaluation)

theorem Sound.accept {path : Path} {expr : Expr}
    {action : Descent σ N (Evaluated N)} {caching : Bool}
    (asked : start.demand overrides path = .ok (.evaluate expr))
    (sound : Sound computations overrides start expr action) :
    Sound computations overrides start (.reference path) (do
      let result ← action
      Descent.accept caching path result) := by
  intro memory remembers
  have first := sound memory remembers
  rw [Descent.run_bind]
  cases ran : action.run memory with
  | mk outcome later =>
      rw [ran] at first
      have accepts := first.2.slot asked
      cases outcome with
      | error error => exact ⟨first.1, accepts⟩
      | ok result =>
          simp only [Descent.run_accept]
          cases result with
          | shaped shape => exact ⟨first.1, accepts⟩
          | plain value =>
              refine ⟨?_, accepts⟩
              cases caching with
              | false => exact first.1
              | true => exact first.1.cacheValue asked accepts.ok

section

variable {evaluator : Evaluator σ N} {caching : Bool} {budget : Nat}

theorem sound_descendExpr_succ
    (pureComputations : evaluator.computations.ArePure)
    (exprs : ∀ expr, Sound evaluator.computations overrides start expr
      (evaluator.descendExpr overrides caching budget expr))
    (paths : ∀ path, Sound evaluator.computations overrides start
      (.reference path) (evaluator.descendPath overrides caching budget path))
    (expr : Expr) :
    Sound evaluator.computations overrides start expr
      (evaluator.descendExpr overrides caching (budget + 1) expr) := by
  intro memory remembers
  cases expr using Expr.byForm with
  | leaf expr leaf =>
      rw [Evaluator.descendExpr_leaf leaf, Descent.run_ofExcept]
      exact ⟨remembers, .inr (.leaf leaf)⟩
  | unary op operand =>
      simp only [Evaluator.descendExpr]
      rw [Descent.run_bind_ofExcept, Descent.run_plain]
      have sound := exprs operand memory remembers
      exact ⟨sound.1, sound.2.unary⟩
  | binary op left right =>
      simp only [Evaluator.descendExpr]
      rw [Descent.run_bind, Descent.run_plain]
      have sound := exprs left memory remembers
      cases value : plain ("operand of '" ++ op.symbol ++ "'")
          ((evaluator.descendExpr overrides caching budget left).run
            memory).1 with
      | error error => exact ⟨sound.1, sound.2.left value⟩
      | ok leftValue =>
          rw [eq_ok_of_plain value] at sound
          have second := exprs right _ sound.1
          simp only [Descent.run_bind_ofExcept, Descent.run_plain]
          exact ⟨second.1, sound.2.binary second.2⟩
  | computation name arguments =>
      simp only [Evaluator.descendExpr]
      cases registered : evaluator.computations.get? name with
      | none => exact ⟨remembers, .inr (.unregistered registered)⟩
      | some computation =>
          obtain ⟨function, same⟩ := pureComputations name computation registered
          subst same
          simp only [Descent.apply_ofFunction]
          rw [Descent.run_bind_ofExcept]
          have sound := Sound.arguments arguments exprs memory remembers
          refine ⟨sound.1, ?_⟩
          rcases sound.2 with spent | evaluation
          · exact .inl (spent.bind function)
          · exact .inr (.computation registered evaluation)
  | reference path => exact paths path memory remembers

theorem sound_descendPath_succ
    (exprs : ∀ expr, Sound evaluator.computations overrides start expr
      (evaluator.descendExpr overrides caching budget expr))
    (paths : ∀ path, Sound evaluator.computations overrides start
      (.reference path) (evaluator.descendPath overrides caching budget path))
    (path : Path) :
    Sound evaluator.computations overrides start (.reference path)
      (evaluator.descendPath overrides caching (budget + 1) path) := by
  intro memory remembers
  rw [Evaluator.run_descendPath]
  cases asked : memory.store.demand overrides path with
  | error error =>
      exact ⟨remembers, .inr (.missing (remembers.demand_error asked))⟩
  | ok wanted =>
      cases wanted with
      | ready value =>
          refine ⟨remembers, .inr ?_⟩
          rcases remembers.demand_ready asked with first | ⟨_, denoted⟩
          · exact .ready first
          · exact denoted
      | evaluate expr =>
          have first := remembers.demand_evaluate asked
          exact (exprs expr).accept first memory remembers
      | assemble kind names =>
          have first := remembers.demand_assemble asked
          have sound := Sound.properties path names (fun name => paths _)
            memory remembers
          simp only [Evaluator.meet]
          rw [Descent.run_map]
          refine ⟨sound.1, ?_⟩
          rcases sound.2 with spent | evaluation
          · exact .inl (spent.map _)
          · exact .inr (.shape first evaluation)

/-- A descent on a store that remembers answers its expression. -/
theorem sound_descend (pureComputations : evaluator.computations.ArePure)
    (overrides : Overrides N) (start : Store N) (caching : Bool)
    (budget : Nat) :
    (∀ expr, Sound evaluator.computations overrides start expr
      (evaluator.descendExpr overrides caching budget expr)) ∧
    (∀ path, Sound evaluator.computations overrides start (.reference path)
      (evaluator.descendPath overrides caching budget path)) := by
  induction budget with
  | zero =>
      constructor
      · intro expr memory remembers
        exact ⟨remembers, .inl rfl⟩
      · intro path memory remembers
        exact ⟨remembers, .inl rfl⟩
  | succ budget induction =>
      obtain ⟨exprs, paths⟩ := induction
      constructor
      · exact sound_descendExpr_succ pureComputations exprs paths
      · exact sound_descendPath_succ exprs paths

/-- Evaluation by name is what descents without caching come to when the budget
does not end them. -/
theorem evaluates_iff_settles {expr : Expr}
    {outcome : Except Error (Evaluated N)}
    (pureComputations : evaluator.computations.ArePure) (world : σ)
    (lasting : ¬ Spent outcome) :
    Evaluates evaluator.computations start overrides expr outcome ↔
      Settles (fun budget => evaluator.descendExpr overrides false budget expr)
        ⟨start, world⟩ outcome := by
  constructor
  · intro evaluation
    exact evaluation.settles world
  · intro ⟨least, enough⟩
    have answered := ((sound_descend pureComputations overrides start false
      least).1 expr ⟨start, world⟩ (.refl start)).2
    rw [enough least (Nat.le_refl least)] at answered
    rcases answered with spent | evaluation
    · exact absurd spent lasting
    · exact evaluation

end

end ByName

end DiagramEnergy
