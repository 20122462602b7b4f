import DiagramEnergy.Proofs.Evaluation.Agreement
import DiagramEnergy.Proofs.Evaluation.Loop

/-!
# One store through many evaluations

Expressions that evaluate on a store of their own also do so one after the
other on one store, in every order and any number of times.  Each gets the
value that it has on its own, and in the end the store holds the values of all
slots that any of them needs.
-/

namespace DiagramEnergy

variable {σ N α β : Type}

namespace ByName

variable [Scalar N] (computations : Computations σ N) (overrides : Overrides N)
  (start : Store N)

/-- A descent that has one result on all warm stores and leaves them warm. -/
def Yields (action : Descent σ N α) (result : α) : Prop :=
  ∀ memory, Warm computations overrides start memory.store →
    (action.run memory).1 = .ok result ∧
      Warm computations overrides start (action.run memory).2.store

variable {computations overrides start}

namespace Yields

theorem pure (result : α) :
    Yields computations overrides start (Pure.pure result : Descent σ N α)
      result :=
  fun _ warm => ⟨rfl, warm⟩

theorem bind {action : Descent σ N α} {next : α → Descent σ N β} {first : α}
    {last : β} (yields : Yields computations overrides start action first)
    (later : Yields computations overrides start (next first) last) :
    Yields computations overrides start (action >>= next) last := by
  intro memory warm
  obtain ⟨succeeded, between⟩ := yields memory warm
  rw [Descent.run_bind]
  cases ran : action.run memory with
  | mk outcome middle =>
      rw [ran] at succeeded between
      cases succeeded
      exact later middle between

theorem mapM {items : List β} {action : β → Descent σ N α} {result : β → α}
    (each : ∀ item ∈ items,
      Yields computations overrides start (action item) (result item)) :
    Yields computations overrides start (items.mapM action)
      (items.map result) := by
  induction items with
  | nil =>
      rw [List.mapM_nil]
      exact pure []
  | cons item items induction =>
      rw [List.mapM_cons]
      apply (each item (by simp)).bind
      apply (induction fun other member => each other (by simp [member])).bind
      exact pure (result item :: items.map result)

end Yields

/-- What succeeds on the start succeeds on every warm store. -/
theorem yields_descendExpr {evaluator : Evaluator σ N} {budget : Nat}
    {expr : Expr} {result : Evaluated N} {world : σ}
    (pureComputations : evaluator.computations.ArePure)
    (fresh : ((evaluator.descendExpr overrides true budget expr).run
      ⟨start, world⟩).1 = .ok result) :
    Yields evaluator.computations overrides start
      (evaluator.descendExpr overrides true budget expr) result := by
  intro memory warm
  have follows := (follows_descend pureComputations overrides start true
    budget).1 expr
  obtain ⟨succeeded, warmer⟩ :=
    follows ⟨start, world⟩ memory (warmer_start warm) result fresh
  exact ⟨succeeded, warmer.warm⟩

/-! ## The final store -/

theorem denoted_of_concrete {later : Store N} {path : Path} {expr : Expr}
    {value : Value N}
    (remembers : Remembers computations overrides start later)
    (asked : start.demand overrides path = .ok (.evaluate expr))
    (found : later.content? path = some (.concrete value)) :
    denoted computations overrides start path value := by
  rcases remembers.contents path with same | ⟨_, held, _, denotes, content⟩
  · rw [found, (Store.demand_evaluate_iff.1 asked).2] at same
    cases same
  · rw [found] at content
    cases content
    exact denotes

variable (computations overrides start) in
/-- A store that holds what some paths need and differs from the start in
nothing else. -/
structure Complete (roots : Path → Prop) (later : Store N) : Prop where
  remembers : Remembers computations overrides start later
  needed : start.Filled overrides (start.fillable fun path =>
    ∃ root, roots root ∧ start.Needs overrides root path) later
  provides : Provides computations overrides start roots later

namespace Complete

variable {roots : Path → Prop} {left right : Store N} [Nonempty σ]

theorem content?_of_changed
    (leftComplete : Complete computations overrides start roots left)
    (rightComplete : Complete computations overrides start roots right)
    {path : Path} (changed : left.content? path ≠ start.content? path) :
    left.content? path = right.content? path := by
  rcases leftComplete.needed.contents path with
    same | ⟨expr, value, asked, reached, found⟩
  · exact absurd same changed
  · obtain ⟨root, chosen, needed⟩ := reached.1
    have denotes := denoted_of_concrete leftComplete.remembers asked found
    obtain ⟨other, there⟩ := rightComplete.provides root path chosen needed
      ⟨⟨expr, asked⟩, value, denotes⟩
    have denotesOther :=
      denoted_of_concrete rightComplete.remembers asked there
    have same := Evaluates.deterministic denotes denotesOther
    cases same
    rw [found, there]

theorem unique
    (leftComplete : Complete computations overrides start roots left)
    (rightComplete : Complete computations overrides start roots right) :
    left = right := by
  apply Store.ext_content?
  · exact leftComplete.remembers.outline.trans
      rightComplete.remembers.outline.symm
  · intro path
    by_cases leftSame : left.content? path = start.content? path
    · by_cases rightSame : right.content? path = start.content? path
      · rw [leftSame, rightSame]
      · exact (rightComplete.content?_of_changed leftComplete rightSame).symm
    · exact leftComplete.content?_of_changed rightComplete leftSame

end Complete

theorem complete_mapM {evaluator : Evaluator σ N} {budget : Nat}
    (pureComputations : evaluator.computations.ArePure) {exprs : List Expr}
    {results : List (Evaluated N)} {world : σ}
    (succeeded : ((exprs.mapM (evaluator.descendExpr overrides true budget)).run
      ⟨start, world⟩).1 = .ok results) :
    Complete evaluator.computations overrides start
      (fun root => ∃ expr ∈ exprs, expr.Mentions root)
      ((exprs.mapM (evaluator.descendExpr overrides true budget)).run
        ⟨start, world⟩).2.store := by
  have completes := Completes.mapM exprs fun expr _ =>
    (completes_descend pureComputations overrides start budget).1 expr
  obtain ⟨warm, -, provided⟩ := completes ⟨start, world⟩ warm_start
  have closed := start.closed_needs overrides fun root =>
    ∃ expr ∈ exprs, expr.Mentions root
  have kept := Keeps.mapM exprs fun expr member =>
    (evaluator.keeps_descend true closed budget).1 expr fun next mentioned =>
        ⟨next, ⟨expr, member, mentioned⟩, .itself next⟩
  exact ⟨warm.remembers, kept ⟨start, world⟩ (.refl start),
    provided results succeeded⟩

end ByName

namespace Evaluator

open ByName

variable [Scalar N] {evaluator : Evaluator σ N} {overrides : Overrides N}

theorem forget_mapM_evalExprAt (depth : Nat) (exprs : List Expr)
    (pass : Pass σ N) :
    Evaluation.forget (exprs.mapM (evaluator.evalExprAt overrides depth) pass) =
      (exprs.mapM (evaluator.descendExpr overrides true
        (evaluator.limit - depth))).run pass.memory := by
  have erases := (evaluator.erases_evalExpr_visit overrides
    (evaluator.limit - depth)).1
  exact Erases.mapM erases exprs pass

/-- Expressions that succeed on their own succeed together, whatever their
order and number, with the same values and one final store. -/
theorem mapM_evalExprAt_of_fresh
    (pureComputations : evaluator.computations.ArePure) (depth : Nat)
    (store : Store N) (exprs : List Expr) (value : Expr → Evaluated N)
    (fresh : ∀ expr ∈ exprs, ∃ pass : Pass σ N, pass.store = store ∧
      (Evaluation.forget (evaluator.evalExprAt overrides depth expr pass)).1 =
        .ok (value expr)) :
    ∃ final, ∀ order : List Expr, (∀ expr, expr ∈ order ↔ expr ∈ exprs) →
      ∀ pass : Pass σ N, pass.store = store →
        let ended := Evaluation.forget
          (order.mapM (evaluator.evalExprAt overrides depth) pass)
        ended.1 = .ok (order.map value) ∧ ended.2.store = final := by
  have yields : ∀ expr ∈ exprs,
      Yields evaluator.computations overrides store
        (evaluator.descendExpr overrides true (evaluator.limit - depth) expr)
        (value expr) := by
    intro expr member
    obtain ⟨pass, same, succeeded⟩ := fresh expr member
    subst same
    rw [forget_evalExprAt] at succeeded
    exact yields_descendExpr pureComputations succeeded
  have succeeds : ∀ order : List Expr, (∀ expr ∈ order, expr ∈ exprs) →
      ∀ world, ((order.mapM (evaluator.descendExpr overrides true
        (evaluator.limit - depth))).run ⟨store, world⟩).1 =
          .ok (order.map value) := by
    intro order among world
    exact (Yields.mapM (fun expr member => yields expr (among expr member))
      ⟨store, world⟩ warm_start).1
  by_cases inhabited : Nonempty σ
  · obtain ⟨world⟩ := inhabited
    refine ⟨((exprs.mapM (evaluator.descendExpr overrides true
      (evaluator.limit - depth))).run ⟨store, world⟩).2.store, ?_⟩
    intro order sameElements pass sameStore
    subst sameStore
    rw [forget_mapM_evalExprAt]
    have succeeded := succeeds order (fun expr => (sameElements expr).1)
      pass.world
    refine ⟨succeeded, ?_⟩
    have all := complete_mapM pureComputations
      (succeeds exprs (fun _ member => member) world)
    have ordered := complete_mapM pureComputations succeeded
    simp only [sameElements] at ordered
    have : Nonempty σ := ⟨world⟩
    exact ordered.unique all
  · refine ⟨store, ?_⟩
    intro order _ pass
    exact absurd ⟨pass.world⟩ inhabited

end Evaluator

end DiagramEnergy
