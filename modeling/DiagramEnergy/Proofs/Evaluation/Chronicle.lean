import DiagramEnergy.Proofs.Evaluation.Soundness
import DiagramEnergy.Proofs.Evaluation.Loop

/-!
# The marks of evaluations that succeed

A chronicle tells how marks lead from one store to another: each slot is opened
where it is symbolic, its expression is evaluated, and it is closed with the
result, which it keeps if that is a plain value.  What marks say about the two
stores follows by induction on chronicles, with no look at the evaluator.
-/

namespace DiagramEnergy

variable {σ N : Type}

namespace Mark

/-- Marks in which the lives of slots are well nested, and no slot is opened
again before it is closed. -/
inductive Nested : List Mark → Prop where
  | nil : Nested []
  | slot {path : Path} {cached : Bool} {inner rest : List Mark} :
      Nested inner → .opened path ∉ inner → Nested rest →
      Nested (.opened path :: inner ++ .closed path cached :: rest)

theorem opened_mem_slot {path other : Path} {cached : Bool}
    {inner rest : List Mark} :
    .opened path ∈ .opened other :: inner ++ .closed other cached :: rest ↔
      path = other ∨ .opened path ∈ inner ∨ .opened path ∈ rest := by
  simp

theorem closed_mem_slot {path other : Path} {kept cached : Bool}
    {inner rest : List Mark} :
    .closed path kept ∈ .opened other :: inner ++ .closed other cached :: rest ↔
      .closed path kept ∈ inner ∨ (path = other ∧ kept = cached) ∨
        .closed path kept ∈ rest := by
  simp

/-- Each opening has its closing. -/
theorem Nested.count_opened {marks : List Mark} (nested : Nested marks)
    (path : Path) :
    marks.count (.opened path) =
      marks.count (.closed path true) + marks.count (.closed path false) := by
  induction nested with
  | nil => rfl
  | @slot other cached inner rest _ _ _ induction later =>
      by_cases same : other = path <;> cases cached <;>
        simp [same, induction, later] <;> omega

theorem Nested.opened_of_closed {marks : List Mark} (nested : Nested marks)
    {path : Path} {cached : Bool} (closed : .closed path cached ∈ marks) :
    .opened path ∈ marks := by
  have counted := nested.count_opened path
  have some := List.count_pos_iff.2 closed
  rw [← List.count_pos_iff]
  cases cached <;> omega

end Mark

def Evaluated.isPlain : Evaluated N → Bool
  | .plain _ => true
  | .shaped _ => false

namespace Store

/-- A store after a slot has been handed its result. -/
def take (store : Store N) (path : Path) : Evaluated N → Store N
  | .plain value => store.cacheValue path value
  | .shaped _ => store

variable {store start : Store N} {overrides : Overrides N} {path other : Path}

theorem grown_take (free : overrides.get? path = none)
    (result : Evaluated N) : store.Grown overrides (store.take path result) := by
  cases result with
  | plain value => exact grown_cacheValue free
  | shaped shape => exact .refl store

theorem content?_take_of_ne (different : other ≠ path)
    (result : Evaluated N) :
    (store.take path result).content? other = store.content? other := by
  cases result with
  | plain value => rw [take, content?_cacheValue, if_neg different]
  | shaped shape => rfl

theorem holds_take {expr : Expr} {result : Evaluated N}
    (grown : start.Grown overrides store)
    (asked : start.demand overrides path = .ok (.evaluate expr))
    (isPlain : result.isPlain = true) :
    (store.take path result).Holds path := by
  have free := (demand_evaluate_iff.1 asked).1
  have later := grown.trans (grown_take free result)
  cases result with
  | plain value => exact later.holds_cacheValue asked
  | shaped shape => cases isPlain

end Store

namespace Evaluator

variable [Scalar N]

/-- An evaluation of an expression that leads from one store to another. -/
def Produces (evaluator : Evaluator σ N) (overrides : Overrides N)
    (expr : Expr) (result : Evaluated N) (start later : Store N) : Prop :=
  ∃ budget pass final,
    evaluator.evalExpr overrides budget expr pass = .ok result final ∧
      pass.store = start ∧ final.store = later

/-- What marks tell about a pass that leads from one store to another. -/
inductive Chronicle (evaluator : Evaluator σ N) (overrides : Overrides N) :
    Store N → List Mark → Store N → Prop where
  | nil (store : Store N) : Chronicle evaluator overrides store [] store
  | slot {path : Path} {expr : Expr} {result : Evaluated N}
      {start middle last : Store N} {inner rest : List Mark} :
      start.demand overrides path = .ok (.evaluate expr) →
      evaluator.Produces overrides expr result start middle →
      Chronicle evaluator overrides start inner middle →
      .opened path ∉ inner →
      Chronicle evaluator overrides (middle.take path result) rest last →
      Chronicle evaluator overrides start
        (.opened path :: inner ++ .closed path result.isPlain :: rest) last

namespace Chronicle

variable {evaluator : Evaluator σ N} {overrides : Overrides N}
  {start middle last : Store N} {marks more : List Mark} {path : Path}

theorem append (chronicle : evaluator.Chronicle overrides start marks middle)
    (onward : evaluator.Chronicle overrides middle more last) :
    evaluator.Chronicle overrides start (marks ++ more) last := by
  induction chronicle with
  | nil => exact onward
  | slot asked produced inner absent _ _ induction =>
      have whole := slot asked produced inner absent (induction onward)
      simpa using whole

theorem nested (chronicle : evaluator.Chronicle overrides start marks last) :
    Mark.Nested marks := by
  induction chronicle with
  | nil => exact .nil
  | slot _ _ _ absent _ inner rest => exact .slot inner absent rest

theorem grown (chronicle : evaluator.Chronicle overrides start marks last) :
    start.Grown overrides last := by
  induction chronicle with
  | nil => exact .refl _
  | slot asked _ _ _ _ inner rest =>
      have free := (Store.demand_evaluate_iff.1 asked).1
      exact (inner.trans (Store.grown_take free _)).trans rest

/-- Only slots that are symbolic from the start are opened. -/
theorem demand_of_opened
    (chronicle : evaluator.Chronicle overrides start marks last)
    (opened : .opened path ∈ marks) :
    ∃ expr, start.demand overrides path = .ok (.evaluate expr) := by
  induction chronicle with
  | nil => simp at opened
  | @slot other expr result start middle last inner rest asked _ first _ _
      induction later =>
      rcases Mark.opened_mem_slot.1 opened with rfl | within | after
      · exact ⟨expr, asked⟩
      · exact induction within
      · have free := (Store.demand_evaluate_iff.1 asked).1
        obtain ⟨found, askedLater⟩ := later after
        exact ⟨found, (first.grown.trans
          (Store.grown_take free result)).demand_evaluate askedLater⟩

theorem not_opened_of_holds
    (chronicle : evaluator.Chronicle overrides start marks last)
    (held : start.Holds path) : .opened path ∉ marks := by
  intro opened
  obtain ⟨expr, asked⟩ := chronicle.demand_of_opened opened
  obtain ⟨value, found⟩ := held
  rw [(Store.demand_evaluate_iff.1 asked).2] at found
  cases found

theorem holds_of_cached
    (chronicle : evaluator.Chronicle overrides start marks last)
    (cached : .closed path true ∈ marks) : last.Holds path := by
  induction chronicle with
  | nil => simp at cached
  | @slot other expr result start middle last inner rest asked _ first _
      following induction later =>
      have free := (Store.demand_evaluate_iff.1 asked).1
      rcases Mark.closed_mem_slot.1 cached with
        within | ⟨rfl, isPlain⟩ | after
      · have kept := (induction within).grown (Store.grown_take free result)
        exact kept.grown following.grown
      · have taken := Store.holds_take first.grown asked isPlain.symm
        exact taken.grown following.grown
      · exact later after

/-- What no slot has kept as its result is still there. -/
theorem content?_of_not_cached
    (chronicle : evaluator.Chronicle overrides start marks last)
    (uncached : .closed path true ∉ marks) :
    last.content? path = start.content? path := by
  induction chronicle with
  | nil => rfl
  | @slot other expr result start middle last inner rest _ _ _ _ _ induction
      later =>
      rw [Mark.closed_mem_slot, not_or, not_or] at uncached
      obtain ⟨within, here, after⟩ := uncached
      rw [later after, ← induction within]
      cases result with
      | shaped shape => rfl
      | plain value =>
          apply Store.content?_take_of_ne
          rintro rfl
          exact here ⟨rfl, rfl⟩

theorem content?_of_not_opened
    (chronicle : evaluator.Chronicle overrides start marks last)
    (unopened : .opened path ∉ marks) :
    last.content? path = start.content? path :=
  chronicle.content?_of_not_cached fun cached =>
    unopened (chronicle.nested.opened_of_closed cached)

theorem content?_ne_iff
    (chronicle : evaluator.Chronicle overrides start marks last) :
    last.content? path ≠ start.content? path ↔
      .closed path true ∈ marks := by
  constructor
  · intro changed
    apply Decidable.by_contra
    exact fun uncached => changed (chronicle.content?_of_not_cached uncached)
  · intro cached same
    have opened := chronicle.nested.opened_of_closed cached
    obtain ⟨expr, asked⟩ := chronicle.demand_of_opened opened
    obtain ⟨value, found⟩ := chronicle.holds_of_cached cached
    rw [same, (Store.demand_evaluate_iff.1 asked).2] at found
    cases found

/-- A slot that has kept its result is not opened again. -/
theorem settled (chronicle : evaluator.Chronicle overrides start marks last) :
    marks.Pairwise fun earlier later =>
      ∀ path, earlier = .closed path true → later ≠ .opened path := by
  induction chronicle with
  | nil => exact .nil
  | @slot other expr result start middle last inner rest asked _ first _
      following induction later =>
      have free := (Store.demand_evaluate_iff.1 asked).1
      rw [List.cons_append, List.pairwise_cons, List.pairwise_append,
        List.pairwise_cons]
      refine ⟨by simp, induction, ⟨?_, later⟩, ?_⟩
      · rintro _ after path closed rfl
        simp only [Mark.closed.injEq] at closed
        obtain ⟨rfl, isPlain⟩ := closed
        have held := Store.holds_take first.grown asked isPlain
        exact following.not_opened_of_holds held after
      · rintro _ within _ after path rfl rfl
        have held := (first.holds_of_cached within).grown
          (Store.grown_take free result)
        exact following.not_opened_of_holds held (by simpa using after)

/-- Only slots that yield shapes are opened more than once. -/
theorem count_opened_le_one
    (chronicle : evaluator.Chronicle overrides start marks last)
    (shapeless : .closed path false ∉ marks) :
    marks.count (.opened path) ≤ 1 := by
  induction chronicle with
  | nil => simp
  | @slot other expr result start middle last inner rest asked _ first absent
      following induction later =>
      have free := (Store.demand_evaluate_iff.1 asked).1
      rw [Mark.closed_mem_slot, not_or, not_or] at shapeless
      obtain ⟨within, here, after⟩ := shapeless
      have counted : (Mark.opened other :: inner ++
          .closed other result.isPlain :: rest).count (.opened path) =
            (if other = path then 1 else 0) + inner.count (.opened path) +
              rest.count (.opened path) := by
        by_cases same : other = path
        · simp [same]
          omega
        · simp [same]
      rw [counted]
      by_cases same : other = path
      · subst same
        have isPlain : result.isPlain = true := by simpa using here
        have held := Store.holds_take first.grown asked isPlain
        have noneWithin := List.count_eq_zero.2 absent
        have noneAfter :=
          List.count_eq_zero.2 (following.not_opened_of_holds held)
        simp [noneWithin, noneAfter]
      · have unopened := List.count_eq_zero.2 within
        have balance := first.nested.count_opened path
        by_cases cached : .closed path true ∈ inner
        · have held := (first.holds_of_cached cached).grown
            (Store.grown_take free result)
          have noneAfter :=
            List.count_eq_zero.2 (following.not_opened_of_holds held)
          have once := induction within
          simp [same, noneAfter, once]
        · have uncached := List.count_eq_zero.2 cached
          have once := later after
          simp [same, balance, unopened, uncached, once]

open ByName in
/-- With pure computations, each slot that is closed has been closed with what
its expression evaluates to by name. -/
theorem evaluates_of_closed {origin : Store N}
    (pureComputations : evaluator.computations.ArePure)
    (chronicle : evaluator.Chronicle overrides start marks last)
    (remembers : Remembers evaluator.computations overrides origin start) :
    Remembers evaluator.computations overrides origin last ∧
      ∀ path cached, .closed path cached ∈ marks → ∃ expr result,
        origin.demand overrides path = .ok (.evaluate expr) ∧
        Evaluates evaluator.computations origin overrides expr (.ok result) ∧
        result.isPlain = cached := by
  induction chronicle with
  | nil => exact ⟨remembers, by simp⟩
  | @slot other expr result start middle last inner rest asked produced _ _ _
      induction later =>
      obtain ⟨budget, pass, final, ran, rfl, rfl⟩ := produced
      have erased := (evaluator.erases_evalExpr_visit overrides budget).1
        expr pass
      rw [ran] at erased
      have sound := (sound_descend pureComputations overrides origin true
        budget).1 expr pass.memory remembers
      rw [← erased] at sound
      obtain ⟨remembersMiddle, answered⟩ := sound
      have first := remembers.demand_evaluate asked
      have taken : Remembers evaluator.computations overrides origin
          (final.store.take other result) := by
        cases result with
        | shaped shape => exact remembersMiddle
        | plain value =>
            exact remembersMiddle.cacheValue first (.slot first answered.ok)
      obtain ⟨-, closedWithin⟩ := induction remembers
      obtain ⟨remembersLast, closedAfter⟩ := later taken
      refine ⟨remembersLast, ?_⟩
      intro path cached closed
      rcases Mark.closed_mem_slot.1 closed with
        within | ⟨rfl, rfl⟩ | after
      · exact closedWithin path cached within
      · exact ⟨expr, result, first, answered.ok, rfl⟩
      · exact closedAfter path cached after

/-- With pure computations, a slot that keeps its result is opened once. -/
theorem count_opened_eq_one [Nonempty σ]
    (pureComputations : evaluator.computations.ArePure)
    (chronicle : evaluator.Chronicle overrides start marks last)
    (cached : .closed path true ∈ marks) :
    marks.count (.opened path) = 1 := by
  obtain ⟨-, closed⟩ :=
    chronicle.evaluates_of_closed pureComputations (.refl start)
  have shapeless : .closed path false ∉ marks := by
    intro shaped
    obtain ⟨expr, result, asked, evaluates, isPlain⟩ := closed path true cached
    obtain ⟨expr', result', asked', evaluates', isShape⟩ :=
      closed path false shaped
    rw [asked] at asked'
    cases asked'
    cases evaluates.deterministic evaluates'
    rw [isPlain] at isShape
    cases isShape
  have opened := chronicle.nested.opened_of_closed cached
  have atMost := chronicle.count_opened_le_one shapeless
  have atLeast := List.count_pos_iff.2 opened
  omega

end Chronicle

end Evaluator

end DiagramEnergy
