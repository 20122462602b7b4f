import DiagramEnergy.Proofs.Evaluation.Reach

/-!
# Evaluations that cannot succeed

If every path of a set asks for another path of the set, no evaluation of any of
them comes to an end by itself.  Whatever the computations do and however large
the budget is, it fails, and it leaves the set as it was.  Main statement: what
the expression of a slot needs does not include the slot, if the expression can
be evaluated at all.
-/

namespace DiagramEnergy

variable {σ N α β : Type}

namespace Store

/-- What has to be evaluated next for a path. -/
inductive Asks (store : Store N) (overrides : Overrides N) :
    Path → Path → Prop where
  | slot {path next : Path} {expr : Expr} :
      store.demand overrides path = .ok (.evaluate expr) →
      expr.Mentions next → Asks store overrides path next
  | part {path : Path} {kind name : String} {names : List String} :
      store.demand overrides path = .ok (.assemble kind names) →
      name ∈ names →
      Asks store overrides path (.property path.object path.fieldName name)

/-- Each path of a set asks for another one of the set. -/
def Endless (store : Store N) (overrides : Overrides N)
    (loop : Path → Prop) : Prop :=
  ∀ path, loop path → ∃ next, loop next ∧ store.Asks overrides path next

variable {store : Store N} {overrides : Overrides N} {path next other : Path}

theorem Asks.congr {later : Store N}
    (same : later.demand overrides path = store.demand overrides path)
    (asks : store.Asks overrides path next) :
    later.Asks overrides path next := by
  cases asks with
  | slot asked mentioned => exact .slot (same.trans asked) mentioned
  | part asked member => exact .part (same.trans asked) member

theorem Asks.needs (asks : store.Asks overrides path next)
    (needs : store.Needs overrides next other) :
    store.Needs overrides path other := by
  cases asks with
  | slot asked mentioned => exact .slot asked mentioned needs
  | part asked member => exact .part asked member needs

theorem Needs.eq_or_asks (needs : store.Needs overrides path other) :
    path = other ∨ ∃ next, store.Asks overrides path next ∧
      store.Needs overrides next other := by
  cases needs with
  | itself => exact .inl rfl
  | slot asked mentioned needs => exact .inr ⟨_, .slot asked mentioned, needs⟩
  | part asked member needs => exact .inr ⟨_, .part asked member, needs⟩

/-- A path that asks for something that needs the path. -/
theorem endless_of_asks (asks : store.Asks overrides path next)
    (back : store.Needs overrides next path) :
    store.Endless overrides fun between =>
      store.Needs overrides path between ∧
        store.Needs overrides between path := by
  intro between ⟨there, again⟩
  rcases again.eq_or_asks with rfl | ⟨further, asksFurther, again⟩
  · exact ⟨next, ⟨asks.needs (.itself next), back⟩, asks⟩
  · have reached := there.trans (asksFurther.needs (.itself further))
    exact ⟨further, ⟨reached, again⟩, asksFurther⟩

namespace Endless

variable {loop : Path → Prop}

theorem not_ready {value : Value N} (endless : store.Endless overrides loop)
    (among : loop path) :
    store.demand overrides path ≠ .ok (.ready value) := by
  intro ready
  obtain ⟨next, -, asks⟩ := endless path among
  cases asks with
  | slot asked =>
      rw [ready] at asked
      cases asked
  | part asked =>
      rw [ready] at asked
      cases asked

theorem exists_mentions {expr : Expr}
    (endless : store.Endless overrides loop) (among : loop path)
    (asked : store.demand overrides path = .ok (.evaluate expr)) :
    ∃ next, loop next ∧ expr.Mentions next := by
  obtain ⟨next, further, asks⟩ := endless path among
  cases asks with
  | slot asked' mentioned =>
      rw [asked] at asked'
      cases asked'
      exact ⟨next, further, mentioned⟩
  | part asked' =>
      rw [asked] at asked'
      cases asked'

theorem exists_property {kind : String} {names : List String}
    (endless : store.Endless overrides loop) (among : loop path)
    (asked : store.demand overrides path = .ok (.assemble kind names)) :
    ∃ name ∈ names, loop (.property path.object path.fieldName name) := by
  obtain ⟨next, further, asks⟩ := endless path among
  cases asks with
  | slot asked' =>
      rw [asked] at asked'
      cases asked'
  | part asked' member =>
      rw [asked] at asked'
      cases asked'
      exact ⟨_, member, further⟩

/-- A value that is cached outside of the set makes no difference to it. -/
theorem cacheValue (endless : store.Endless overrides loop)
    (elsewhere : ¬ loop path) (value : Value N) :
    (store.cacheValue path value).Endless overrides loop := by
  intro between among
  obtain ⟨next, further, asks⟩ := endless between among
  refine ⟨next, further, asks.congr ?_⟩
  apply demand_congr (outline_cacheValue store path value)
  rw [content?_cacheValue, if_neg]
  rintro rfl
  exact elsewhere among

end Endless

end Store

/-- A descent that leaves an endless set as it was, and fails if a path of the set
is due. -/
def Stalls (overrides : Overrides N) (loop : Path → Prop) (due : Prop)
    (action : Descent σ N α) : Prop :=
  Ensures (fun store => store.Endless overrides loop) action
    fun outcome later => later.Endless overrides loop ∧
      (due → ∃ error, outcome = .error error)

namespace Stalls

variable {overrides : Overrides N} {loop : Path → Prop} {due later : Prop}
  {action : Descent σ N α}

theorem weaken (stalls : Stalls overrides loop due action)
    (implied : later → due) : Stalls overrides loop later action := by
  intro memory endless
  obtain ⟨kept, fails⟩ := stalls memory endless
  exact ⟨kept, fun holds => fails (implied holds)⟩

/-- What does not touch the store stalls where it fails. -/
theorem of_unchanged (unchanged : ∀ memory,
    (action.run memory).2.store = memory.store)
    (fails : due → ∀ memory, ∃ error, (action.run memory).1 = .error error) :
    Stalls overrides loop due action := by
  intro memory endless
  rw [unchanged memory]
  exact ⟨endless, fun holds => fails holds memory⟩

theorem throw (error : Error) :
    Stalls overrides loop due (MonadExcept.throw error : Descent σ N α) :=
  of_unchanged (fun _ => rfl) fun _ _ => ⟨error, rfl⟩

theorem pure (result : α) :
    Stalls overrides loop False (Pure.pure result : Descent σ N α) :=
  of_unchanged (fun _ => rfl) fun never => never.elim

theorem ofExcept (outcome : Except Error α) :
    Stalls overrides loop False
      (Descent.ofExcept outcome : Descent σ N α) := by
  cases outcome with
  | error error => exact throw error
  | ok result => exact pure result

theorem apply (computation : Computation σ N)
    (arguments : List (Evaluated N)) :
    Stalls overrides loop False (Descent.apply computation arguments) :=
  of_unchanged (fun _ => rfl) fun never => never.elim

theorem bind {next : α → Descent σ N β}
    (first : Stalls overrides loop due action)
    (rest : ∀ result, Stalls overrides loop later (next result)) :
    Stalls overrides loop (due ∨ later) (action >>= next) := by
  intro memory endless
  obtain ⟨between, fails⟩ := first memory endless
  rw [Descent.run_bind]
  cases ran : action.run memory with
  | mk outcome middle =>
      rw [ran] at between fails
      cases outcome with
      | error error => exact ⟨between, fun _ => ⟨error, rfl⟩⟩
      | ok result =>
          obtain ⟨after, failsLater⟩ := rest result middle between
          refine ⟨after, ?_⟩
          rintro (early | late)
          · obtain ⟨error, same⟩ := fails early
            cases same
          · exact failsLater late

theorem andThen {next : α → Descent σ N β}
    (first : Stalls overrides loop due action)
    (rest : ∀ result, Stalls overrides loop False (next result)) :
    Stalls overrides loop due (action >>= next) :=
  (first.bind rest).weaken .inl

theorem plain {action : Descent σ N (Evaluated N)} (context : String)
    (first : Stalls overrides loop due action) :
    Stalls overrides loop due (Descent.plain context action) :=
  first.andThen fun _ => ofExcept _

theorem mapM (items : List β) {due : β → Prop}
    {action : β → Descent σ N α}
    (each : ∀ item ∈ items, Stalls overrides loop (due item) (action item)) :
    Stalls overrides loop (∃ item ∈ items, due item)
      (items.mapM action) := by
  induction items with
  | nil =>
      rw [List.mapM_nil]
      exact (pure []).weaken (by simp)
  | cons item items induction =>
      rw [List.mapM_cons]
      have rest := induction fun other member => each other (by simp [member])
      have all := (each item (by simp)).bind fun first =>
        rest.andThen fun results => pure (first :: results)
      exact all.weaken (by simp)

/-- A slot outside of the set may take its result over. -/
theorem accept {path : Path} (caching : Bool) (elsewhere : ¬ loop path)
    (result : Evaluated N) :
    Stalls overrides loop False
      (Descent.accept caching path result : Descent σ N _) := by
  intro memory endless
  rw [Descent.run_accept]
  refine ⟨?_, False.elim⟩
  cases result with
  | shaped shape => exact endless
  | plain value =>
      cases caching with
      | false => exact endless
      | true => exact endless.cacheValue elsewhere value

end Stalls

namespace Evaluator

variable [Scalar N] {evaluator : Evaluator σ N} {overrides : Overrides N}
  {caching : Bool} {budget : Nat} {loop : Path → Prop}

theorem stalls_descendExpr_succ
    (exprs : ∀ expr, Stalls overrides loop
      (∃ next, loop next ∧ expr.Mentions next)
      (evaluator.descendExpr overrides caching budget expr))
    (paths : ∀ path, Stalls overrides loop (loop path)
      (evaluator.descendPath overrides caching budget path))
    (expr : Expr) :
    Stalls overrides loop (∃ next, loop next ∧ expr.Mentions next)
      (evaluator.descendExpr overrides caching (budget + 1) expr) := by
  cases expr using Expr.byForm with
  | leaf expr leaf =>
      rw [descendExpr_leaf leaf]
      apply (Stalls.ofExcept _).weaken
      rintro ⟨next, -, mentioned⟩
      cases mentioned <;> cases leaf
  | unary op operand =>
      have stalls := ((exprs operand).plain "unary operand").andThen
        fun value => Stalls.ofExcept (Evaluated.plain <$> op.apply value)
      apply stalls.weaken
      rintro ⟨next, among, mentioned⟩
      cases mentioned with
      | unary mentioned => exact ⟨next, among, mentioned⟩
  | binary op left right =>
      have stalls := ((exprs left).plain ("operand of '" ++ op.symbol ++ "'")).bind
        fun leftValue =>
          ((exprs right).plain ("operand of '" ++ op.symbol ++ "'")).andThen
            fun rightValue => Stalls.ofExcept
              (Evaluated.plain <$> op.apply leftValue rightValue)
      apply stalls.weaken
      rintro ⟨next, among, mentioned⟩
      cases mentioned with
      | left mentioned => exact .inl ⟨next, among, mentioned⟩
      | right mentioned => exact .inr ⟨next, among, mentioned⟩
  | computation name arguments =>
      simp only [descendExpr]
      cases evaluator.computations.get? name with
      | none => exact Stalls.throw _
      | some computation =>
          have stalls := (Stalls.mapM arguments
            fun argument _ => exprs argument).andThen
              fun results => Stalls.apply computation results
          apply stalls.weaken
          rintro ⟨next, among, mentioned⟩
          cases mentioned with
          | argument member mentioned =>
              exact ⟨_, member, next, among, mentioned⟩
  | reference path =>
      apply (paths path).weaken
      rintro ⟨next, among, mentioned⟩
      cases mentioned
      exact among

theorem stalls_descendPath_succ
    (exprs : ∀ expr, Stalls overrides loop
      (∃ next, loop next ∧ expr.Mentions next)
      (evaluator.descendExpr overrides caching budget expr))
    (paths : ∀ path, Stalls overrides loop (loop path)
      (evaluator.descendPath overrides caching budget path))
    (path : Path) :
    Stalls overrides loop (loop path)
      (evaluator.descendPath overrides caching (budget + 1) path) := by
  intro memory endless
  rw [run_descendPath]
  cases asked : memory.store.demand overrides path with
  | error error => exact Stalls.throw error memory endless
  | ok wanted =>
      cases wanted with
      | ready value =>
          exact ⟨endless, fun among =>
            absurd asked (endless.not_ready among)⟩
      | evaluate expr =>
          by_cases among : loop path
          · have due := endless.exists_mentions among asked
            obtain ⟨kept, fails⟩ := exprs expr memory endless
            obtain ⟨error, failed⟩ := fails due
            simp only [meet]
            rw [Descent.run_bind]
            cases ran : (evaluator.descendExpr overrides caching budget
                expr).run memory with
            | mk outcome middle =>
                rw [ran] at kept failed
                cases failed
                exact ⟨kept, fun _ => ⟨error, rfl⟩⟩
          · have stalls := (exprs expr).bind fun result =>
              Stalls.accept caching among result
            exact (stalls.weaken fun holds => absurd holds among) memory
              endless
      | assemble kind names =>
          have stalls := (Stalls.mapM names fun name _ =>
            ((paths (.property path.object path.fieldName name)).plain
              (Path.property path.object path.fieldName name).text).andThen
                fun value => Stalls.pure (name, value)).andThen
                  fun values => Stalls.pure
                    (Evaluated.shaped (.assembled path kind values))
          obtain ⟨kept, fails⟩ := stalls memory endless
          exact ⟨kept, fun among =>
            fails (endless.exists_property among asked)⟩

variable (evaluator overrides caching budget loop) in
/-- A descent that comes across an endless set fails. -/
theorem stalls_descend :
    (∀ expr, Stalls overrides loop (∃ next, loop next ∧ expr.Mentions next)
      (evaluator.descendExpr overrides caching budget expr)) ∧
    (∀ path, Stalls overrides loop (loop path)
      (evaluator.descendPath overrides caching budget path)) := by
  induction budget with
  | zero => exact ⟨fun _ => Stalls.throw _, fun _ => Stalls.throw _⟩
  | succ budget induction =>
      obtain ⟨exprs, paths⟩ := induction
      constructor
      · exact stalls_descendExpr_succ exprs paths
      · exact stalls_descendPath_succ exprs paths

/-- A slot whose expression can be evaluated is not among the paths that the
expression needs. -/
theorem not_needs_of_descendExpr {path root : Path} {expr : Expr}
    {memory : Memory σ N} {result : Evaluated N}
    (asked : memory.store.demand overrides path = .ok (.evaluate expr))
    (succeeded : ((evaluator.descendExpr overrides caching budget expr).run
      memory).1 = .ok result) (mentioned : expr.Mentions root) :
    ¬ memory.store.Needs overrides root path := by
  intro back
  have asks : memory.store.Asks overrides path root := .slot asked mentioned
  obtain ⟨-, fails⟩ := (stalls_descend evaluator overrides caching budget
    _).1 expr memory (Store.endless_of_asks asks back)
  obtain ⟨error, failed⟩ :=
    fails ⟨root, ⟨asks.needs (.itself root), back⟩, mentioned⟩
  rw [succeeded] at failed
  cases failed

end Evaluator

end DiagramEnergy
