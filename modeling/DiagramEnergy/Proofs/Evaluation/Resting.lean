import DiagramEnergy.Proofs.Energy
import DiagramEnergy.Proofs.Evaluation.Assembly
import DiagramEnergy.Proofs.Evaluation.Shapes

/-!
# Evaluating what is concrete already

Where a store has nothing left to evaluate, a descent has a result and leaves
the memory as it was.  A shape whose properties are all at hand is evaluated in
two steps down, and a call that refers to it in three.
-/

namespace DiagramEnergy

variable {σ N α β : Type}

/-- A descent that has a result and changes nothing. -/
def Rests (memory : Memory σ N) (action : Descent σ N α) (result : α) : Prop :=
  action.run memory = (.ok result, memory)

namespace Rests

variable {memory : Memory σ N}

theorem pure (result : α) :
    Rests memory (Pure.pure result : Descent σ N α) result :=
  rfl

theorem bind {action : Descent σ N α} {next : α → Descent σ N β} {first : α}
    {last : β} (rests : Rests memory action first)
    (later : Rests memory (next first) last) :
    Rests memory (action >>= next) last := by
  unfold Rests at rests ⊢
  rw [Descent.run_bind, rests]
  exact later

theorem plain {action : Descent σ N (Evaluated N)} {value : Value N}
    (context : String) (rests : Rests memory action (.plain value)) :
    Rests memory (Descent.plain context action) value :=
  rests.bind (pure value)

theorem mapM {items : List β} {action : β → Descent σ N α} {result : β → α}
    (each : ∀ item ∈ items, Rests memory (action item) (result item)) :
    Rests memory (items.mapM action) (items.map result) := by
  induction items with
  | nil =>
      rw [List.mapM_nil]
      exact pure []
  | cons item items induction =>
      rw [List.mapM_cons]
      apply (each item (by simp)).bind
      apply (induction fun other member => each other (by simp [member])).bind
      exact pure (result item :: items.map result)

/-- A traversal rests if each of its steps does, with some good result. -/
theorem exists_mapM {items : List β} {action : β → Descent σ N α}
    {good : α → Prop}
    (each : ∀ item ∈ items, ∃ result, good result ∧
      Rests memory (action item) result) :
    ∃ results, (∀ result ∈ results, good result) ∧
      Rests memory (items.mapM action) results := by
  induction items with
  | nil => exact ⟨[], by simp, by rw [List.mapM_nil]; exact pure []⟩
  | cons item items induction =>
      obtain ⟨result, holds, first⟩ := each item (by simp)
      obtain ⟨results, hold, rest⟩ :=
        induction fun other member => each other (by simp [member])
      refine ⟨result :: results, by simpa using ⟨holds, hold⟩, ?_⟩
      rw [List.mapM_cons]
      exact first.bind (rest.bind (pure _))

end Rests

/-- At a field there is a shape whose properties are all at hand, as concrete
content or as overrides. -/
structure Store.AtHand (store : Store N) (overrides : Overrides N)
    (object name kind : String) (names : List String) (value : String → Value N) :
    Prop where
  assembles : store.demand overrides (.field object name) =
    .ok (.assemble kind names)
  ready : ∀ property ∈ names,
    store.demand overrides (.property object name property) =
      .ok (.ready (value property))

/-- The shape that a field holds. -/
def Shape.held (object name kind : String) (names : List String)
    (value : String → Value N) : Shape N :=
  .assembled (.field object name) kind
    (names.map fun property => (property, value property))

theorem Shape.get?_held {object name kind property : String}
    {names : List String} {value : String → Value N} (distinct : names.Nodup)
    (ordinary : property ≠ "name") :
    (held object name kind names value).get? property =
      if property ∈ names then some (value property) else none := by
  rw [held, get?_assembled_of_ne ordinary]
  split
  case isTrue listed =>
    apply Table.get?_ofList_of_mem
    · rw [List.map_map]
      exact (List.map_id names).symm ▸ distinct
    · exact List.mem_map.2 ⟨property, listed, rfl⟩
  case isFalse absent =>
    apply Table.get?_ofList_eq_none
    rw [List.map_map]
    exact (List.map_id names).symm ▸ absent

namespace Evaluator

variable [Scalar N] {evaluator : Evaluator σ N} {overrides : Overrides N}
  {caching : Bool} {memory : Memory σ N} {object name kind : String}
  {names : List String} {value : String → Value N}

theorem rests_descendPath_ready {path : Path} {held : Value N} (budget : Nat)
    (ready : memory.store.demand overrides path = .ok (.ready held)) :
    Rests memory (evaluator.descendPath overrides caching (budget + 1) path)
      (.plain held) := by
  unfold Rests
  rw [run_descendPath, ready]
  rfl

theorem rests_descendPath_held {budget : Nat} (enough : 2 ≤ budget)
    (holds : memory.store.AtHand overrides object name kind names value) :
    Rests memory
      (evaluator.descendPath overrides caching budget (.field object name))
      (.shaped (.held object name kind names value)) := by
  obtain ⟨rest, rfl⟩ := Nat.exists_eq_add_of_le' enough
  unfold Rests
  rw [run_descendPath, holds.assembles]
  have properties : ∀ property ∈ names, Rests memory
      (evaluator.descendProperty overrides caching (rest + 1)
        (.field object name) property) (property, value property) := by
    intro property listed
    have ready : Rests memory (evaluator.descendPath overrides caching
        (rest + 1) (.property object name property)) (.plain (value property)) :=
      rests_descendPath_ready rest (holds.ready property listed)
    exact (ready.plain _).bind (Rests.pure _)
  exact (Rests.mapM properties).bind (Rests.pure _)

theorem rests_descendShape_held (enough : 2 ≤ evaluator.limit)
    (holds : memory.store.AtHand overrides object name kind names value) :
    Rests memory (evaluator.descendShape overrides (.field object name))
      (.held object name kind names value) :=
  (rests_descendPath_held enough holds).bind (Rests.pure _)

/-- A call that refers to a shape at hand gets that shape. -/
theorem rests_descendCall_held (enough : 4 ≤ evaluator.limit)
    (holds : memory.store.AtHand overrides object name kind names value)
    {call : Call} (referring : call.arguments = [.reference (.field object name)]) :
    Rests memory (evaluator.descendCall overrides call)
      ⟨call.role, call.name, [.shaped (.held object name kind names value)]⟩ := by
  obtain ⟨rest, limit⟩ := Nat.exists_eq_add_of_le' enough
  have argument : Rests memory
      (evaluator.descendExpr overrides true (evaluator.limit - 1)
        (.reference (.field object name)))
      (.shaped (.held object name kind names value)) := by
    rw [limit, show rest + 4 - 1 = (rest + 2) + 1 by omega,
      descendExpr_reference]
    exact rests_descendPath_held (by omega) holds
  have arguments : Rests memory
      (call.arguments.mapM
        (evaluator.descendExpr overrides true (evaluator.limit - 1)))
      [.shaped (.held object name kind names value)] := by
    rw [referring]
    exact argument.bind (Rests.pure _)
  exact arguments.bind (Rests.pure _)

end Evaluator

end DiagramEnergy
