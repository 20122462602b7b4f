import DiagramEnergy.Proofs.Evaluation.Reach
import DiagramEnergy.Proofs.Evaluation.Soundness

/-!
# Successful evaluations leave nothing out

A slot is cached after all slots that it needs, so a store that remembers is
saturated: what a cached slot needs is cached as well.  A successful evaluation
caches everything that its expression needs, except for slots that stand for
shapes and are evaluated again each time.
-/

namespace DiagramEnergy

variable {σ N α β : Type}

namespace ByName

variable [Scalar N] (computations : Computations σ N) (overrides : Overrides N)
  (start : Store N)

/-- A slot that is symbolic at the start, has no override, and evaluates to a
plain value. -/
def Cacheable (path : Path) : Prop :=
  (∃ expr, start.demand overrides path = .ok (.evaluate expr)) ∧
    ∃ value, denoted computations overrides start path value

/-- Everything cacheable that some paths need is there. -/
def Provides (roots : Path → Prop) (later : Store N) : Prop :=
  ∀ root path, roots root → start.Needs overrides root path →
    Cacheable computations overrides start path → later.Holds path

def Saturated (later : Store N) : Prop :=
  ∀ path, Cacheable computations overrides start path → later.Holds path →
    Provides computations overrides start (· = path) later

/-- The stores that evaluations on the start leave behind. -/
structure Warm (later : Store N) : Prop where
  remembers : Remembers computations overrides start later
  saturated : Saturated computations overrides start later

/-- A descent between warm stores whose success provides what the roots need. -/
def Completes (roots : Path → Prop) (action : Descent σ N α) : Prop :=
  ∀ memory, Warm computations overrides start memory.store →
    Warm computations overrides start (action.run memory).2.store ∧
    memory.store.Grown overrides (action.run memory).2.store ∧
    ∀ result, (action.run memory).1 = .ok result →
      Provides computations overrides start roots (action.run memory).2.store

variable {computations overrides start}

theorem warm_start : Warm computations overrides start start := by
  refine ⟨Store.Filled.refl start, ?_⟩
  intro path ⟨⟨expr, asked⟩, _⟩ ⟨value, found⟩
  have symbolic := (Store.demand_evaluate_iff.1 asked).2
  rw [found] at symbolic
  cases symbolic

theorem Provides.grown {roots : Path → Prop} {later last : Store N}
    (provided : Provides computations overrides start roots later)
    (grown : later.Grown overrides last) :
    Provides computations overrides start roots last := by
  intro root path chosen needed cacheable
  exact (provided root path chosen needed cacheable).grown grown

theorem Provides.none {later : Store N} :
    Provides computations overrides start (fun _ => False) later :=
  fun _ _ chosen => chosen.elim

/-- What the slot at a path needs, the path itself needs. -/
theorem provides_of_evaluate {path : Path} {expr : Expr} {later : Store N}
    (asked : start.demand overrides path = .ok (.evaluate expr))
    (held : Cacheable computations overrides start path → later.Holds path)
    (provided : Provides computations overrides start expr.Mentions later) :
    Provides computations overrides start (· = path) later := by
  intro root other same needed cacheable
  subst same
  cases needed with
  | itself => exact held cacheable
  | slot asked' mentioned needed =>
      rw [asked] at asked'
      cases asked'
      exact provided _ other mentioned needed cacheable
  | part asked' =>
      rw [asked] at asked'
      cases asked'

theorem provides_of_assemble {path : Path} {kind : String}
    {names : List String} {later : Store N}
    (asked : start.demand overrides path = .ok (.assemble kind names))
    (provided : Provides computations overrides start
      (fun root => ∃ name ∈ names,
        root = .property path.object path.fieldName name) later) :
    Provides computations overrides start (· = path) later := by
  intro root other same needed cacheable
  subst same
  cases needed with
  | itself =>
      obtain ⟨⟨expr, asked'⟩, _⟩ := cacheable
      rw [asked] at asked'
      cases asked'
  | slot asked' =>
      rw [asked] at asked'
      cases asked'
  | part asked' member needed =>
      rw [asked] at asked'
      cases asked'
      exact provided _ other ⟨_, member, rfl⟩ needed cacheable

theorem provides_of_ready {path : Path} {value : Value N} {later : Store N}
    (asked : start.demand overrides path = .ok (.ready value)) :
    Provides computations overrides start (· = path) later := by
  intro root other same needed cacheable
  subst same
  cases needed with
  | itself =>
      obtain ⟨⟨expr, asked'⟩, _⟩ := cacheable
      rw [asked] at asked'
      cases asked'
  | slot asked' =>
      rw [asked] at asked'
      cases asked'
  | part asked' =>
      rw [asked] at asked'
      cases asked'

namespace Completes

variable {roots further : Path → Prop} {action : Descent σ N α}

theorem fewer (completes : Completes computations overrides start roots action)
    (among : ∀ root, further root → roots root) :
    Completes computations overrides start further action := by
  intro memory warm
  obtain ⟨after, grown, provided⟩ := completes memory warm
  refine ⟨after, grown, ?_⟩
  intro result succeeded root path chosen
  exact provided result succeeded root path (among root chosen)

theorem pure (result : α) :
    Completes computations overrides start (fun _ => False)
      (Pure.pure result : Descent σ N α) :=
  fun _ warm => ⟨warm, .refl _, fun _ _ => Provides.none⟩

theorem throw (error : Error) :
    Completes computations overrides start roots
      (MonadExcept.throw error : Descent σ N α) := by
  intro memory warm
  refine ⟨warm, .refl _, ?_⟩
  intro result succeeded
  cases succeeded

theorem ofExcept (outcome : Except Error α) :
    Completes computations overrides start (fun _ => False)
      (Descent.ofExcept outcome : Descent σ N α) := by
  intro memory warm
  rw [Descent.run_ofExcept]
  exact ⟨warm, .refl _, fun _ _ => Provides.none⟩

theorem apply (computation : Computation σ N)
    (arguments : List (Evaluated N)) :
    Completes computations overrides start (fun _ => False)
      (Descent.apply computation arguments) :=
  fun _ warm => ⟨warm, .refl _, fun _ _ => Provides.none⟩

theorem bind {next : α → Descent σ N β}
    (first : Completes computations overrides start roots action)
    (later : ∀ result,
      Completes computations overrides start further (next result)) :
    Completes computations overrides start
      (fun root => roots root ∨ further root) (action >>= next) := by
  intro memory warm
  obtain ⟨between, grown, provided⟩ := first memory warm
  rw [Descent.run_bind]
  cases ran : action.run memory with
  | mk outcome middle =>
      rw [ran] at between grown provided
      cases outcome with
      | error error =>
          refine ⟨between, grown, ?_⟩
          intro result succeeded
          cases succeeded
      | ok result =>
          obtain ⟨after, grownAgain, providedAgain⟩ :=
            later result middle between
          refine ⟨after, grown.trans grownAgain, ?_⟩
          intro final succeeded root path chosen
          rcases chosen with early | late
          · exact (provided result rfl).grown grownAgain root path early
          · exact providedAgain final succeeded root path late

theorem andThen {next : α → Descent σ N β}
    (first : Completes computations overrides start roots action)
    (later : ∀ result,
      Completes computations overrides start (fun _ => False) (next result)) :
    Completes computations overrides start roots (action >>= next) :=
  (first.bind later).fewer fun _ chosen => .inl chosen

theorem plain {action : Descent σ N (Evaluated N)} (context : String)
    (first : Completes computations overrides start roots action) :
    Completes computations overrides start roots
      (Descent.plain context action) :=
  first.andThen fun _ => ofExcept _

theorem mapM (items : List β) {roots : β → Path → Prop}
    {action : β → Descent σ N α}
    (each : ∀ item ∈ items,
      Completes computations overrides start (roots item) (action item)) :
    Completes computations overrides start
      (fun root => ∃ item ∈ items, roots item root) (items.mapM action) := by
  induction items with
  | nil =>
      rw [List.mapM_nil]
      exact (pure []).fewer (by simp)
  | cons item items induction =>
      rw [List.mapM_cons]
      have rest := induction fun other member => each other (by simp [member])
      have all := (each item (by simp)).bind fun first =>
        rest.andThen fun results => pure (first :: results)
      exact all.fewer (by simp)

end Completes

theorem Warm.cacheValue {later : Store N} {path : Path} {expr : Expr}
    {value : Value N} (warm : Warm computations overrides start later)
    (asked : start.demand overrides path = .ok (.evaluate expr))
    (value_denoted : denoted computations overrides start path value)
    (provided : Provides computations overrides start expr.Mentions later) :
    Warm computations overrides start (later.cacheValue path value) ∧
      Provides computations overrides start (· = path)
        (later.cacheValue path value) := by
  have free := (Store.demand_evaluate_iff.1 asked).1
  have grown : later.Grown overrides (later.cacheValue path value) :=
    Store.grown_cacheValue free
  have remembers := warm.remembers.cacheValue asked value_denoted
  have completed := provides_of_evaluate asked
    (fun _ => remembers.holds_cacheValue asked) (provided.grown grown)
  refine ⟨⟨remembers, ?_⟩, completed⟩
  intro other cacheable held
  by_cases same : other = path
  · subst same
    exact completed
  · obtain ⟨found, content⟩ := held
    rw [Store.content?_cacheValue, if_neg same] at content
    exact (warm.saturated other cacheable ⟨found, content⟩).grown grown

/-- Accepting the result of a slot completes the slot. -/
theorem completes_accept {path : Path} {expr : Expr}
    {action : Descent σ N (Evaluated N)}
    (asked : start.demand overrides path = .ok (.evaluate expr))
    (sound : Sound computations overrides start expr action)
    (completes : Completes computations overrides start expr.Mentions action) :
    Completes computations overrides start (· = path) (do
      let result ← action
      Descent.accept true path result) := by
  intro memory warm
  obtain ⟨after, grown, provided⟩ := completes memory warm
  have answered := (sound memory warm.remembers).2
  rw [Descent.run_bind]
  cases ran : action.run memory with
  | mk outcome later =>
      rw [ran] at after grown provided answered
      cases outcome with
      | error error =>
          refine ⟨after, grown, ?_⟩
          intro result succeeded
          cases succeeded
      | ok result =>
          have accepts := answered.slot asked
          have needed := provided result rfl
          simp only [Descent.run_accept]
          cases result with
          | plain value =>
              obtain ⟨warmAfter, complete⟩ :=
                after.cacheValue asked accepts.ok needed
              have free := (Store.demand_evaluate_iff.1 asked).1
              exact ⟨warmAfter, grown.trans (Store.grown_cacheValue free),
                fun _ _ => complete⟩
          | shaped shape =>
              refine ⟨after, grown, ?_⟩
              intro final succeeded
              apply provides_of_evaluate asked _ needed
              -- A slot that stands for a shape has no plain value.
              intro ⟨_, value, denotes⟩
              have : Nonempty σ := ⟨memory.world⟩
              have shaped := Evaluates.slot asked answered.ok
              have same := Evaluates.deterministic denotes shaped
              cases isField : path.isField <;>
                simp [Bind.bind, Except.bind, accepted, isField] at same

section

variable {evaluator : Evaluator σ N} {budget : Nat}

theorem completes_descendExpr_succ
    (exprs : ∀ expr, Completes evaluator.computations overrides start
      expr.Mentions (evaluator.descendExpr overrides true budget expr))
    (paths : ∀ path, Completes evaluator.computations overrides start
      (· = path) (evaluator.descendPath overrides true budget path))
    (expr : Expr) :
    Completes evaluator.computations overrides start expr.Mentions
      (evaluator.descendExpr overrides true (budget + 1) expr) := by
  cases expr using Expr.byForm with
  | leaf expr leaf =>
      rw [Evaluator.descendExpr_leaf leaf]
      apply (Completes.ofExcept _).fewer
      intro root mentioned
      cases mentioned <;> cases leaf
  | unary op operand =>
      have complete := ((exprs operand).plain "unary operand").andThen
        fun value => Completes.ofExcept (Evaluated.plain <$> op.apply value)
      apply complete.fewer
      intro root mentioned
      cases mentioned with
      | unary mentioned => exact mentioned
  | binary op left right =>
      have complete := ((exprs left).plain (operandContext op)).bind
        fun leftValue => ((exprs right).plain (operandContext op)).andThen
          fun rightValue => Completes.ofExcept
            (Evaluated.plain <$> op.apply leftValue rightValue)
      apply complete.fewer
      intro root mentioned
      cases mentioned with
      | left mentioned => exact .inl mentioned
      | right mentioned => exact .inr mentioned
  | computation name arguments =>
      simp only [Evaluator.descendExpr]
      cases registered : evaluator.computations.get? name with
      | none => exact Completes.throw _
      | some computation =>
          have complete := (Completes.mapM arguments
            fun argument _ => exprs argument).andThen
              fun results => Completes.apply computation results
          apply complete.fewer
          intro root mentioned
          cases mentioned with
          | argument member mentioned => exact ⟨_, member, mentioned⟩
  | reference path =>
      apply (paths path).fewer
      intro root mentioned
      cases mentioned
      rfl

theorem completes_descendPath_succ
    (pureComputations : evaluator.computations.ArePure)
    (exprs : ∀ expr, Completes evaluator.computations overrides start
      expr.Mentions (evaluator.descendExpr overrides true budget expr))
    (paths : ∀ path, Completes evaluator.computations overrides start
      (· = path) (evaluator.descendPath overrides true budget path))
    (path : Path) :
    Completes evaluator.computations overrides start (· = path)
      (evaluator.descendPath overrides true (budget + 1) path) := by
  intro memory warm
  rw [Evaluator.run_descendPath]
  cases asked : memory.store.demand overrides path with
  | error error => exact Completes.throw error memory warm
  | ok wanted =>
      cases wanted with
      | ready value =>
          refine ⟨warm, .refl _, ?_⟩
          intro result succeeded
          rcases warm.remembers.demand_ready asked with
            first | ⟨symbolic, denotes⟩
          · exact provides_of_ready first
          · have free := (Store.demand_evaluate_iff.1 symbolic.choose_spec).1
            exact warm.saturated path ⟨symbolic, value, denotes⟩
              (Store.holds_of_ready free asked)
      | evaluate expr =>
          have first := warm.remembers.demand_evaluate asked
          have sound := (sound_descend pureComputations overrides start true
            budget).1 expr
          exact completes_accept first sound (exprs expr) memory warm
      | assemble kind names =>
          have first := warm.remembers.demand_assemble asked
          have complete := (Completes.mapM names fun name _ =>
            ((paths (.property path.object path.fieldName name)).plain
              (Path.property path.object path.fieldName name).text).andThen
                fun value => Completes.pure (name, value)).andThen
                  fun values => Completes.pure
                    (Evaluated.shaped (.assembled path kind values))
          obtain ⟨after, grown, provided⟩ := complete memory warm
          exact ⟨after, grown, fun result succeeded =>
            provides_of_assemble first (provided result succeeded)⟩

/-- A successful descent caches all that its expression needs. -/
theorem completes_descend (pureComputations : evaluator.computations.ArePure)
    (overrides : Overrides N) (start : Store N) (budget : Nat) :
    (∀ expr, Completes evaluator.computations overrides start expr.Mentions
      (evaluator.descendExpr overrides true budget expr)) ∧
    (∀ path, Completes evaluator.computations overrides start (· = path)
      (evaluator.descendPath overrides true budget path)) := by
  induction budget with
  | zero => exact ⟨fun _ => Completes.throw _, fun _ => Completes.throw _⟩
  | succ budget induction =>
      obtain ⟨exprs, paths⟩ := induction
      constructor
      · exact completes_descendExpr_succ exprs paths
      · exact completes_descendPath_succ pureComputations exprs paths

end

end ByName

end DiagramEnergy
