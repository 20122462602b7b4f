import DiagramEnergy.Proofs.Evaluation.Saturation

/-!
# Two evaluations of one expression

An evaluation that succeeds on one store also succeeds, with the same result,
on every warm store that holds at least as much.  Where the second evaluation
meets a value that the first one has to work out, it saves budget; everywhere
else the two go the same way.
-/

namespace DiagramEnergy

variable {σ N α β : Type}

namespace ByName

variable [Scalar N] (computations : Computations σ N) (overrides : Overrides N)
  (start : Store N)

/-- A store that remembers beside a warm one that holds all that it holds. -/
structure Warmer (first second : Store N) : Prop where
  remembers : Remembers computations overrides start first
  warm : Warm computations overrides start second
  holds : ∀ path, Cacheable computations overrides start path →
    first.Holds path → second.Holds path

/-- Whenever the first descent succeeds, the second one does so with the same
result on a warmer store. -/
def Follows (first second : Descent σ N α) : Prop :=
  ∀ memory other,
    Warmer computations overrides start memory.store other.store →
    ∀ result, (first.run memory).1 = .ok result →
      (second.run other).1 = .ok result ∧
      Warmer computations overrides start (first.run memory).2.store
        (second.run other).2.store

variable {computations overrides start}

theorem warmer_start {store : Store N}
    (warm : Warm computations overrides start store) :
    Warmer computations overrides start start store := by
  refine ⟨.refl start, warm, ?_⟩
  intro path ⟨⟨expr, asked⟩, _⟩ ⟨value, found⟩
  have symbolic := (Store.demand_evaluate_iff.1 asked).2
  rw [found] at symbolic
  cases symbolic

theorem Warmer.ready {first second : Store N} {path : Path} {value : Value N}
    (warmer : Warmer computations overrides start first second)
    (asked : first.demand overrides path = .ok (.ready value)) :
    ∃ present, second.demand overrides path = .ok (.ready present) := by
  rcases warmer.remembers.demand_ready asked with
    ready | ⟨symbolic, denotes⟩
  · rcases warmer.warm.remembers.demand path with
      same | ⟨expr, _, symbolic, _, _⟩
    · exact ⟨value, same.trans ready⟩
    · rw [ready] at symbolic
      cases symbolic
  · have free := (Store.demand_evaluate_iff.1 symbolic.choose_spec).1
    obtain ⟨present, found⟩ := warmer.holds path ⟨symbolic, value, denotes⟩
      (Store.holds_of_ready free asked)
    exact ⟨present, Store.demand_of_content free found⟩

namespace Follows

variable {first second : Descent σ N α}

theorem throw (error : Error) :
    Follows computations overrides start
      (MonadExcept.throw error : Descent σ N α) second := by
  intro memory other warmer result succeeded
  cases succeeded

theorem ofExcept (outcome : Except Error α) :
    Follows computations overrides start
      (Descent.ofExcept outcome : Descent σ N α)
      (Descent.ofExcept outcome) := by
  intro memory other warmer result succeeded
  rw [Descent.run_ofExcept] at succeeded
  rw [Descent.run_ofExcept, Descent.run_ofExcept]
  exact ⟨succeeded, warmer⟩

theorem bind {next onward : α → Descent σ N β}
    (follows : Follows computations overrides start first second)
    (later : ∀ result,
      Follows computations overrides start (next result) (onward result)) :
    Follows computations overrides start (first >>= next)
      (second >>= onward) := by
  intro memory other warmer result succeeded
  rw [Descent.run_bind] at succeeded ⊢
  rw [Descent.run_bind]
  cases ran : first.run memory with
  | mk outcome middle =>
      have followed := follows memory other warmer
      rw [ran] at succeeded followed
      cases outcome with
      | error error => cases succeeded
      | ok intermediate =>
          obtain ⟨same, warmer⟩ := followed intermediate rfl
          cases ranOther : second.run other with
          | mk outcomeOther middleOther =>
              rw [ranOther] at same warmer
              cases same
              exact later intermediate middle middleOther warmer result
                succeeded

theorem pure (result : α) :
    Follows computations overrides start (Pure.pure result : Descent σ N α)
      (Pure.pure result) :=
  ofExcept (.ok result)

theorem plain {first second : Descent σ N (Evaluated N)} (context : String)
    (follows : Follows computations overrides start first second) :
    Follows computations overrides start (Descent.plain context first)
      (Descent.plain context second) :=
  follows.bind fun _ => ofExcept _

theorem mapM (items : List β) {first second : β → Descent σ N α}
    (each : ∀ item ∈ items,
      Follows computations overrides start (first item) (second item)) :
    Follows computations overrides start (items.mapM first)
      (items.mapM second) :=
  related_mapM (fun first second =>
    Follows computations overrides start first second) pure bind items each

end Follows

section

variable {evaluator : Evaluator σ N} {caching : Bool} {budget : Nat}

/-- Two successes have one result, and the store that was warmer stays so. -/
theorem Warmer.after {expr : Expr} {memory other : Memory σ N}
    (pureComputations : evaluator.computations.ArePure)
    (warmer : Warmer evaluator.computations overrides start memory.store
      other.store) {result resultOther : Evaluated N}
    (succeeded : ((evaluator.descendExpr overrides caching budget expr).run
      memory).1 = .ok result)
    (succeededOther : ((evaluator.descendExpr overrides true budget expr).run
      other).1 = .ok resultOther) :
    resultOther = result ∧
      Warmer evaluator.computations overrides start
        ((evaluator.descendExpr overrides caching budget expr).run
          memory).2.store
        ((evaluator.descendExpr overrides true budget expr).run
          other).2.store := by
  have : Nonempty σ := ⟨memory.world⟩
  have sound := (sound_descend pureComputations overrides start caching
    budget).1 expr memory warmer.remembers
  have soundOther := (sound_descend pureComputations overrides start true
    budget).1 expr other warmer.warm.remembers
  rw [succeeded] at sound
  rw [succeededOther] at soundOther
  have same := Evaluates.deterministic soundOther.2.ok sound.2.ok
  cases same
  obtain ⟨warmAfter, grown, provided⟩ := (completes_descend pureComputations
    overrides start budget).1 expr other warmer.warm
  refine ⟨rfl, sound.1, warmAfter, ?_⟩
  intro path cacheable held
  have closed := (start.closed_needs overrides expr.Mentions).filled
    warmer.remembers
  have filled := (evaluator.keeps_descend caching closed budget).1 expr
      (fun next mentioned => ⟨next, mentioned, .itself next⟩) memory (.refl _)
  rcases filled.contents path with unchanged | ⟨_, _, _, reached, _⟩
  · obtain ⟨value, found⟩ := held
    rw [unchanged] at found
    exact (warmer.holds path cacheable ⟨value, found⟩).grown grown
  · obtain ⟨root, mentioned, needed⟩ := reached.1
    exact provided result succeededOther root path mentioned needed cacheable

/-- It is enough to know that the second descent succeeds. -/
theorem follows_of_succeeds
    (pureComputations : evaluator.computations.ArePure) (expr : Expr)
    (budget : Nat)
    (succeeds : ∀ memory other,
      Warmer evaluator.computations overrides start memory.store
        other.store →
      ∀ result, ((evaluator.descendExpr overrides caching budget expr).run
        memory).1 = .ok result →
      ∃ resultOther, ((evaluator.descendExpr overrides true budget expr).run
        other).1 = .ok resultOther) :
    Follows evaluator.computations overrides start
      (evaluator.descendExpr overrides caching budget expr)
      (evaluator.descendExpr overrides true budget expr) := by
  intro memory other warmer result succeeded
  obtain ⟨resultOther, succeededOther⟩ :=
    succeeds memory other warmer result succeeded
  obtain ⟨same, after⟩ :=
    warmer.after pureComputations succeeded succeededOther
  rw [same] at succeededOther
  exact ⟨succeededOther, after⟩

theorem follows_descendExpr_succ
    (pureComputations : evaluator.computations.ArePure)
    (exprs : ∀ expr, Follows evaluator.computations overrides start
      (evaluator.descendExpr overrides caching budget expr)
      (evaluator.descendExpr overrides true budget expr))
    (paths : ∀ path, Follows evaluator.computations overrides start
      (evaluator.descendPath overrides caching budget path)
      (evaluator.descendPath overrides true budget path))
    (expr : Expr) :
    Follows evaluator.computations overrides start
      (evaluator.descendExpr overrides caching (budget + 1) expr)
      (evaluator.descendExpr overrides true (budget + 1) expr) := by
  cases expr using Expr.byForm with
  | leaf expr leaf =>
      rw [Evaluator.descendExpr_leaf leaf, Evaluator.descendExpr_leaf leaf]
      exact Follows.ofExcept _
  | unary op operand =>
      exact ((exprs operand).plain _).bind fun _ => Follows.ofExcept _
  | binary op left right =>
      exact ((exprs left).plain _).bind fun _ =>
        ((exprs right).plain _).bind fun _ => Follows.ofExcept _
  | computation name arguments =>
      simp only [Evaluator.descendExpr]
      cases registered : evaluator.computations.get? name with
      | none => exact Follows.throw _
      | some computation =>
          obtain ⟨function, same⟩ := pureComputations name computation registered
          subst same
          simp only [Descent.apply_ofFunction]
          have follows := Follows.mapM arguments
            fun argument _ => exprs argument
          exact follows.bind fun _ => Follows.ofExcept _
  | reference path => exact paths path

theorem Follows.accepts {first second : Descent σ N (Evaluated N)}
    (follows : Follows computations overrides start first second) (path : Path)
    {memory other : Memory σ N}
    (warmer : Warmer computations overrides start memory.store other.store)
    {result : Evaluated N}
    (succeeded : ((do
      let found ← first
      Descent.accept caching path found).run memory).1 = .ok result) :
    ((do
      let found ← second
      Descent.accept true path found).run other).1 = .ok result := by
  rw [Descent.run_bind_accept_fst] at succeeded ⊢
  cases inner : (first.run memory).1 with
  | error error =>
      rw [inner] at succeeded
      cases succeeded
  | ok found =>
      obtain ⟨innerOther, -⟩ := follows memory other warmer found inner
      rw [inner] at succeeded
      rw [innerOther]
      exact succeeded

theorem follows_assemble
    (paths : ∀ path, Follows evaluator.computations overrides start
      (evaluator.descendPath overrides caching budget path)
      (evaluator.descendPath overrides true budget path))
    (path : Path) (kind : String) (names : List String) :
    Follows evaluator.computations overrides start
      (evaluator.meet overrides caching budget path
        (.ok (.assemble kind names)))
      (evaluator.meet overrides true budget path
        (.ok (.assemble kind names))) := by
  have parts : ∀ name ∈ names,
      Follows evaluator.computations overrides start
        (evaluator.descendProperty overrides caching budget path name)
        (evaluator.descendProperty overrides true budget path name) := by
    intro name member
    exact ((paths _).plain _).bind fun value => Follows.pure (name, value)
  exact (Follows.mapM names parts).bind fun values =>
    Follows.pure (Evaluated.shaped (.assembled path kind values))

/-- A path is met on a warmer store if it is met at all. -/
theorem succeeds_descendPath_succ
    (exprs : ∀ expr, Follows evaluator.computations overrides start
      (evaluator.descendExpr overrides caching budget expr)
      (evaluator.descendExpr overrides true budget expr))
    (paths : ∀ path, Follows evaluator.computations overrides start
      (evaluator.descendPath overrides caching budget path)
      (evaluator.descendPath overrides true budget path))
    {path : Path} {memory other : Memory σ N}
    (warmer : Warmer evaluator.computations overrides start memory.store
      other.store) {result : Evaluated N}
    (succeeded : ((evaluator.descendPath overrides caching (budget + 1)
      path).run memory).1 = .ok result) :
    ∃ resultOther, ((evaluator.descendPath overrides true (budget + 1)
      path).run other).1 = .ok resultOther := by
  rw [Evaluator.run_descendPath] at succeeded ⊢
  cases asked : memory.store.demand overrides path with
  | error error =>
      rw [asked] at succeeded
      cases succeeded
  | ok wanted =>
      rw [asked] at succeeded
      cases wanted with
      | ready value =>
          obtain ⟨present, there⟩ := warmer.ready asked
          rw [there]
          exact ⟨.plain present, rfl⟩
      | evaluate expr =>
          have first := warmer.remembers.demand_evaluate asked
          rcases warmer.warm.remembers.demand path with
            same | ⟨_, present, _, _, there⟩
          · rw [same, first]
            exact ⟨result, (exprs expr).accepts path warmer succeeded⟩
          · rw [there]
            exact ⟨.plain present, rfl⟩
      | assemble kind names =>
          have first := warmer.remembers.demand_assemble asked
          rcases warmer.warm.remembers.demand path with
            same | ⟨expr, _, symbolic, _, _⟩
          · rw [same, first]
            have shape := follows_assemble paths path kind names
            exact ⟨result, (shape memory other warmer result succeeded).1⟩
          · rw [first] at symbolic
            cases symbolic

/-- A descent that succeeds does so on every warmer store. -/
theorem follows_descend (pureComputations : evaluator.computations.ArePure)
    (overrides : Overrides N) (start : Store N) (caching : Bool)
    (budget : Nat) :
    (∀ expr, Follows evaluator.computations overrides start
      (evaluator.descendExpr overrides caching budget expr)
      (evaluator.descendExpr overrides true budget expr)) ∧
    (∀ path, Follows evaluator.computations overrides start
      (evaluator.descendPath overrides caching budget path)
      (evaluator.descendPath overrides true budget path)) := by
  induction budget with
  | zero => exact ⟨fun _ => Follows.throw _, fun _ => Follows.throw _⟩
  | succ budget induction =>
      obtain ⟨exprs, paths⟩ := induction
      constructor
      · exact follows_descendExpr_succ pureComputations exprs paths
      · intro path
        exact follows_of_succeeds pureComputations (.reference path)
          (budget + 2) fun memory other warmer result succeeded =>
            succeeds_descendPath_succ exprs paths warmer succeeded

end

end ByName

end DiagramEnergy
