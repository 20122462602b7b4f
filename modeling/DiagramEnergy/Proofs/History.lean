import DiagramEnergy.Proofs.Energy
import DiagramEnergy.Proofs.Evaluation.Shapes
import DiagramEnergy.Proofs.Store.Persistence

/-!
# Histories of a store

A history is any sequence of declarations, insertions, cached values and
evaluations on one store, each of which may fail.  Whatever is bound when a
history begins is still bound when it ends: only writing over a slot could
change that.  Evaluating and caching bind nothing new, and an insertion that
fails leaves nothing behind, not even the part of a batch that it could insert.
-/

namespace DiagramEnergy

variable {σ N α : Type}

/-- What can be done to a store without writing over its slots. -/
inductive Operation (σ N : Type) where
  | declare (object : String)
  | insertShape (object name kind : String)
      (properties : Table String (Content N))
  | insertPath (path : Path) (content : Content N)
  | insertPaths (paths : List Path) (contents : List (Content N))
  | cacheValue (path : Path) (value : Value N)
  | evalExpr (evaluator : Evaluator σ N) (overrides : Overrides N)
      (depth : Nat) (expr : Expr)
  | evalPath (evaluator : Evaluator σ N) (overrides : Overrides N)
      (depth : Nat) (path : Path)
  | evalShapes (evaluator : Evaluator σ N) (overrides : Overrides N)
      (paths : List Path)
  | evalCall (evaluator : Evaluator σ N) (overrides : Overrides N)
      (call : Call)

namespace Operation

def isInsertion : Operation σ N → Bool
  | .insertShape _ _ _ _ => true
  | .insertPath _ _ => true
  | .insertPaths _ _ => true
  | _ => false

/-- Whether an operation caches a value or evaluates something. -/
def isFilling : Operation σ N → Bool
  | .cacheValue _ _ => true
  | .evalExpr _ _ _ _ => true
  | .evalPath _ _ _ _ => true
  | .evalShapes _ _ _ => true
  | .evalCall _ _ _ => true
  | _ => false

/-- What an insertion leaves behind, whether it fails or not. -/
def inserted (memory : Memory σ N) (insertion : Insertion N Unit) :
    Except Error Unit × Memory σ N :=
  match insertion memory.store with
  | .ok _ store => (.ok (), { memory with store })
  | .error error store => (.error error, { memory with store })

/-- What an evaluation leaves behind, whether it fails or not. -/
def evaluated (memory : Memory σ N) (action : Evaluation σ N α) :
    Except Error Unit × Memory σ N :=
  let ended := Evaluation.forget (action ⟨memory.store, memory.world, []⟩)
  ((fun _ => ()) <$> ended.1, ended.2)

def run [Scalar N] (operation : Operation σ N) (memory : Memory σ N) :
    Except Error Unit × Memory σ N :=
  match operation with
  | .declare object =>
    (.ok (), { memory with store := memory.store.declare object })
  | .insertShape object name kind properties =>
    inserted memory (Store.insertShape object name kind properties)
  | .insertPath path content =>
    inserted memory (Store.insertPath path content)
  | .insertPaths paths contents =>
    inserted memory (Store.insertPaths paths contents)
  | .cacheValue path value =>
    (.ok (), { memory with store := memory.store.cacheValue path value })
  | .evalExpr evaluator overrides depth expr =>
    evaluated memory (evaluator.evalExprAt overrides depth expr)
  | .evalPath evaluator overrides depth path =>
    evaluated memory (evaluator.evalPathAt overrides depth path)
  | .evalShapes evaluator overrides paths =>
    evaluated memory (evaluator.evalShapes overrides paths)
  | .evalCall evaluator overrides call =>
    evaluated memory (evaluator.evalCall overrides call)

/-- Carries out one operation after the other, whether they fail or not. -/
def history [Scalar N] (operations : List (Operation σ N))
    (memory : Memory σ N) : Memory σ N :=
  operations.foldl (fun memory operation => (operation.run memory).2) memory

/-! ## One operation -/

theorem filled_evaluated {overrides : Overrides N} {memory : Memory σ N}
    {action : Evaluation σ N α} {descent : Descent σ N α}
    (erases : Erases action descent)
    (keeps : Keeps (memory.store.Filled overrides
      (memory.store.fillable fun _ => True)) descent) :
    ∃ rule, memory.store.Filled overrides rule
      (evaluated memory action).2.store := by
  refine ⟨memory.store.fillable fun _ => True, ?_⟩
  simp only [evaluated, erases ⟨memory.store, memory.world, []⟩]
  exact keeps memory (.refl memory.store)

theorem keeps_descendCall [Scalar N] {evaluator : Evaluator σ N}
    {overrides : Overrides N} (start : Store N) (call : Call) :
    Keeps (start.Filled overrides (start.fillable fun _ => True))
      (evaluator.descendCall overrides call) := by
  have exprs := (evaluator.keeps_descend true (start.closed_all overrides)
    (evaluator.limit - 1)).1
  have arguments := Keeps.mapM call.arguments fun argument _ =>
    exprs argument fun _ _ => trivial
  exact arguments.bind fun _ => Keeps.pure _

theorem persists_inserted {memory : Memory σ N} {insertion : Insertion N Unit}
    (atomic : insertion.IsAtomic)
    (persists : ∀ store, insertion memory.store = .ok () store →
      memory.store.Persists store) :
    memory.store.Persists (inserted memory insertion).2.store := by
  unfold inserted
  cases ended : insertion memory.store with
  | ok result store => exact persists store ended
  | error error store =>
      rw [atomic memory.store error store ended]
      exact .refl memory.store

theorem store_of_inserted_error {memory : Memory σ N}
    {insertion : Insertion N Unit} (atomic : insertion.IsAtomic) {error : Error}
    (failed : (inserted memory insertion).1 = .error error) :
    (inserted memory insertion).2.store = memory.store := by
  unfold inserted at failed ⊢
  cases ended : insertion memory.store with
  | ok result store =>
      rw [ended] at failed
      cases failed
  | error found store => exact atomic memory.store found store ended

variable [Scalar N]

/-- Evaluating and caching fill the store, also when they fail. -/
theorem filled_run {operation : Operation σ N}
    (filling : operation.isFilling = true) (memory : Memory σ N) :
    ∃ overrides rule, memory.store.Filled overrides rule
      (operation.run memory).2.store := by
  cases operation with
  | declare object => cases filling
  | insertShape object name kind properties => cases filling
  | insertPath path content => cases filling
  | insertPaths paths contents => cases filling
  | cacheValue path value =>
      exact ⟨.empty, _, Store.grown_cacheValue rfl⟩
  | evalExpr evaluator overrides depth expr =>
      have descent := evaluator.keeps_descend true
        (memory.store.closed_all overrides) (evaluator.limit - depth)
      have erases := (evaluator.erases_evalExpr_visit overrides
        (evaluator.limit - depth)).1 expr
      exact ⟨overrides,
        filled_evaluated erases (descent.1 expr fun _ _ => trivial)⟩
  | evalPath evaluator overrides depth path =>
      have descent := evaluator.keeps_descend true
        (memory.store.closed_all overrides) (evaluator.limit - depth)
      have erases := (evaluator.erases_evalExpr_visit overrides
        (evaluator.limit - depth)).2 path
      exact ⟨overrides, filled_evaluated erases (descent.2 path trivial)⟩
  | evalShapes evaluator overrides paths =>
      have keeps : Keeps _ (paths.mapM (evaluator.descendShape overrides)) :=
        Keeps.mapM paths fun path _ =>
          Evaluator.keeps_descendShape memory.store path
      exact ⟨overrides, filled_evaluated
        (Erases.mapM (evaluator.erases_evalShape overrides) paths) keeps⟩
  | evalCall evaluator overrides call =>
      exact ⟨overrides, filled_evaluated
        (evaluator.erases_evalCall overrides call)
        (keeps_descendCall memory.store call)⟩

/-- The store persists under every operation, also when it fails. -/
theorem persists_run (operation : Operation σ N) (memory : Memory σ N) :
    memory.store.Persists (operation.run memory).2.store := by
  cases kind : operation.isFilling with
  | true =>
      obtain ⟨overrides, rule, filled⟩ := filled_run kind memory
      exact filled.persists
  | false =>
      cases operation with
      | declare object => exact memory.store.persists_declare object
      | insertShape object name kind properties =>
          exact persists_inserted (Store.isAtomic_insertSlot object name _)
            fun _ => Store.persists_insertSlot
      | insertPath path content =>
          exact persists_inserted (Store.isAtomic_insertPath path content)
            fun _ => Store.persists_insertPath
      | insertPaths paths contents =>
          exact persists_inserted (Store.isAtomic_insertPaths paths contents)
            fun _ => Store.persists_insertPaths
      | _ => cases kind

theorem store_of_failed_insertion {operation : Operation σ N}
    (insertion : operation.isInsertion = true) {memory : Memory σ N}
    {error : Error} (failed : (operation.run memory).1 = .error error) :
    (operation.run memory).2.store = memory.store := by
  cases operation with
  | insertShape object name kind properties =>
      exact store_of_inserted_error (Store.isAtomic_insertSlot object name _)
        failed
  | insertPath path content =>
      exact store_of_inserted_error (Store.isAtomic_insertPath path content)
        failed
  | insertPaths paths contents =>
      exact store_of_inserted_error (Store.isAtomic_insertPaths paths contents)
        failed
  | _ => cases insertion

/-! ## All operations -/

theorem persists_history (operations : List (Operation σ N))
    (memory : Memory σ N) :
    memory.store.Persists (history operations memory).store := by
  induction operations generalizing memory with
  | nil => exact .refl memory.store
  | cons operation operations induction =>
      exact (operation.persists_run memory).trans
        (induction (operation.run memory).2)

/-- After every history, objects are still declared, concrete content is the
same, symbolic content is the same or concrete, scalars are scalars, and shapes
have their kinds and properties.  What comes next binds nothing new if it
evaluates or caches, and changes nothing if it is an insertion that fails. -/
theorem history_keeps_bindings (operations : List (Operation σ N))
    (memory : Memory σ N) :
    let earlier := memory.store
    let later := (history operations memory).store
    (∀ object, earlier.hasObject object = true →
      later.hasObject object = true) ∧
    (∀ path value, earlier.content? path = some (.concrete value) →
      later.content? path = some (.concrete value)) ∧
    (∀ path expr, earlier.content? path = some (.symbolic expr) →
      later.content? path = some (.symbolic expr) ∨
        ∃ value, later.content? path = some (.concrete value)) ∧
    (∀ object name content,
      earlier.slot? object name = some (.scalar content) →
      ∃ present, later.slot? object name = some (.scalar present)) ∧
    (∀ object name kind properties,
      earlier.slot? object name = some (.shape kind properties) →
      ∃ present, later.slot? object name = some (.shape kind present) ∧
        ∀ property ∈ properties.keys, property ∈ present.keys) ∧
    ∀ operation : Operation σ N,
      let ended := operation.run (history operations memory)
      (operation.isFilling = true →
        ended.2.store.outline = later.outline) ∧
      (operation.isInsertion = true →
        ∀ error, ended.1 = .error error → ended.2.store = later) := by
  intro earlier later
  have persists : earlier.Persists later := persists_history operations memory
  refine ⟨persists.objects, ?_, ?_, ?_, ?_, ?_⟩
  · intro path value found
    obtain ⟨present, foundLater, kept⟩ := persists.content? found
    rw [foundLater, kept.concrete]
  · intro path expr found
    obtain ⟨present, foundLater, kept⟩ := persists.content? found
    rcases kept.symbolic with rfl | ⟨value, rfl⟩
    · exact .inl foundLater
    · exact .inr ⟨value, foundLater⟩
  · intro object name content found
    exact persists.scalar found
  · intro object name kind properties found
    exact persists.shape found
  · intro operation ended
    constructor
    · intro filling
      obtain ⟨overrides, rule, filled⟩ :=
        filled_run filling (history operations memory)
      exact filled.outline
    · intro insertion error failed
      exact store_of_failed_insertion insertion failed

end Operation

/-- The evaluation of the end of the chain. -/
def Operation.chained : Operation Unit Float :=
  .evalExpr Evaluator.doubling .empty 0 (.reference (.field "A" "y"))

/-- A batch of which the second path is taken. -/
def Operation.clashing : Operation Unit Float :=
  .insertPaths [.field "A" "z", .field "A" "x"]
    [.concrete (.int 1), .concrete (.int 2)]

/-- The chained store after its evaluation. -/
def Memory.chained : Memory Unit Float :=
  (Operation.chained.run ⟨.chained, ()⟩).2

/-- A batch fails at its second path, and a shape finds its field taken: the
chain keeps its value, and the batch leaves no trace. -/
theorem Operation.history_keeps_chained :
    let shape : Operation Unit Float := .insertShape "A" "x" "Disc" .empty
    Memory.chained.store.content? (.field "A" "x") =
      some (.concrete (.int 6)) ∧
    (history [clashing, shape] .chained).store.content? (.field "A" "x") =
      some (.concrete (.int 6)) ∧
    (clashing.run .chained).1 = .error (.duplicatePath (.field "A" "x")) ∧
    (clashing.run .chained).2.store = Memory.chained.store := by
  have value : Memory.chained.store.content? (.field "A" "x") =
      some (.concrete (.int 6)) := by cbv
  have failed : (clashing.run .chained).1 =
      .error (.duplicatePath (.field "A" "x")) := by cbv
  intro shape
  obtain ⟨-, concrete, -⟩ :=
    history_keeps_bindings [clashing, shape] Memory.chained
  obtain ⟨-, -, -, -, -, next⟩ := history_keeps_bindings [] Memory.chained
  exact ⟨value, concrete (.field "A" "x") (.int 6) value, failed,
    (next clashing).2 rfl _ failed⟩

end DiagramEnergy
