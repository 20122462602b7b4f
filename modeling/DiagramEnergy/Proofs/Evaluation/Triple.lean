import DiagramEnergy.Proofs.Evaluation.ByName

/-!
# Reasoning about descents step by step

A triple says what holds of the outcome and the store after a descent if
something held of the store before it.  There is one rule for each way to put a
descent together.
-/

namespace DiagramEnergy

variable {σ N α β : Type}

theorem exists_mem_zip {items : List α} {others : List β}
    (sameLength : others.length = items.length) {item : α}
    (member : item ∈ items) : ∃ other, (item, other) ∈ items.zip others := by
  rw [← List.map_fst_zip (Nat.le_of_eq sameLength.symm)] at member
  obtain ⟨⟨_, other⟩, paired, rfl⟩ := List.mem_map.1 member
  exact ⟨other, paired⟩

/-- Whenever `before` holds of a store, `after` holds of what the descent makes
of it. -/
def Ensures (before : Store N → Prop) (action : Descent σ N α)
    (after : Except Error α → Store N → Prop) : Prop :=
  ∀ memory, before memory.store →
    after (action.run memory).1 (action.run memory).2.store

namespace Ensures

variable {before : Store N → Prop} {action : Descent σ N α}
  {after middle : Except Error α → Store N → Prop}

theorem pure {result : α}
    (holds : ∀ store, before store → after (.ok result) store) :
    Ensures before (Pure.pure result : Descent σ N α) after :=
  fun memory => holds memory.store

theorem throw {error : Error}
    (holds : ∀ store, before store → after (.error error) store) :
    Ensures before (MonadExcept.throw error : Descent σ N α) after :=
  fun memory => holds memory.store

theorem ofExcept {outcome : Except Error α}
    (holds : ∀ store, before store → after outcome store) :
    Ensures before (Descent.ofExcept outcome : Descent σ N α) after := by
  intro memory start
  rw [Descent.run_ofExcept]
  exact holds memory.store start

theorem bind {next : α → Descent σ N β}
    {afterwards : Except Error β → Store N → Prop}
    (first : Ensures before action after)
    (later : ∀ result, Ensures (after (.ok result)) (next result) afterwards)
    (failed : ∀ error store, after (.error error) store →
      afterwards (.error error) store) :
    Ensures before (action >>= next) afterwards := by
  intro memory holds
  have reached := first memory holds
  rw [Descent.run_bind]
  cases ran : action.run memory with
  | mk outcome final =>
      rw [ran] at reached
      cases outcome with
      | ok result => exact later result final reached
      | error error => exact failed error final.store reached

theorem mapM (items : List β) {invariant : Store N → Prop}
    {good : β → α → Prop} {action : β → Descent σ N α}
    (each : ∀ item ∈ items, Ensures invariant (action item)
      fun outcome store => invariant store ∧
        ∀ result, outcome = .ok result → good item result) :
    Ensures invariant (items.mapM action) fun outcome store =>
      invariant store ∧ ∀ results, outcome = .ok results →
        results.length = items.length ∧
        ∀ pair ∈ items.zip results, good pair.1 pair.2 := by
  induction items with
  | nil =>
      rw [List.mapM_nil]
      apply pure
      intro store holds
      refine ⟨holds, ?_⟩
      intro results same
      cases same
      exact ⟨rfl, by simp⟩
  | cons item items induction =>
      have rest := induction fun other member => each other (by simp [member])
      rw [List.mapM_cons]
      refine bind (each item (by simp)) ?_ ?_
      · intro first memory ⟨holds, goodFirst⟩
        obtain ⟨after, goodRest⟩ := rest memory holds
        rw [Descent.run_bind]
        cases ran : (items.mapM action).run memory with
        | mk outcome later =>
            rw [ran] at after goodRest
            cases outcome with
            | error error =>
                refine ⟨after, ?_⟩
                intro results same
                cases same
            | ok results =>
                refine ⟨after, ?_⟩
                intro all same
                cases same
                obtain ⟨sameLength, goodPairs⟩ := goodRest results rfl
                refine ⟨by simp [sameLength], ?_⟩
                intro pair member
                rw [List.zip_cons_cons] at member
                rcases List.mem_cons.1 member with rfl | later
                · exact goodFirst first rfl
                · exact goodPairs pair later
      · intro error store ⟨holds, _⟩
        refine ⟨holds, ?_⟩
        intro results same
        cases same

end Ensures

/-- A descent after which a property of the store still holds, also when it
fails. -/
def Keeps (property : Store N → Prop) (action : Descent σ N α) : Prop :=
  Ensures property action fun _ => property

namespace Keeps

variable {property : Store N → Prop} {action : Descent σ N α}

theorem pure (result : α) :
    Keeps property (Pure.pure result : Descent σ N α) :=
  Ensures.pure fun _ holds => holds

theorem throw (error : Error) :
    Keeps property (MonadExcept.throw error : Descent σ N α) :=
  Ensures.throw fun _ holds => holds

theorem ofExcept (outcome : Except Error α) :
    Keeps property (Descent.ofExcept outcome : Descent σ N α) :=
  Ensures.ofExcept fun _ holds => holds

theorem bind {next : α → Descent σ N β} (first : Keeps property action)
    (later : ∀ result, Keeps property (next result)) :
    Keeps property (action >>= next) :=
  Ensures.bind first later fun _ _ holds => holds

theorem plain {action : Descent σ N (Evaluated N)} (context : String)
    (first : Keeps property action) :
    Keeps property (Descent.plain context action) :=
  first.bind fun _ => ofExcept _

theorem apply (computation : Computation σ N)
    (arguments : List (Evaluated N)) :
    Keeps property (Descent.apply computation arguments) :=
  fun _ holds => holds

theorem mapM (items : List β) {action : β → Descent σ N α}
    (each : ∀ item ∈ items, Keeps property (action item)) :
    Keeps property (items.mapM action) :=
  @related_mapM (Descent σ N) (Descent σ N) _ _ _ _
    (fun action _ => Keeps property action) pure bind _ _ items action action
    each

end Keeps

namespace Descent

theorem run_bind_ofExcept (action : Descent σ N α) (next : α → Except Error β)
    (memory : Memory σ N) :
    (action >>= fun result => ofExcept (next result)).run memory =
      ((action.run memory).1 >>= next, (action.run memory).2) := by
  rw [run_bind]
  cases action.run memory with
  | mk outcome final =>
      cases outcome with
      | error error => rfl
      | ok result => exact run_ofExcept (next result) final

theorem run_plain (context : String) (action : Descent σ N (Evaluated N))
    (memory : Memory σ N) :
    (plain context action).run memory =
      (ByName.plain context (action.run memory).1, (action.run memory).2) :=
  run_bind_ofExcept action (·.toValue context) memory

theorem run_map (action : Descent σ N α) (change : α → β)
    (memory : Memory σ N) :
    (do
      let result ← action
      return change result : Descent σ N β).run memory =
      (change <$> (action.run memory).1, (action.run memory).2) := by
  rw [run_bind]
  cases action.run memory with
  | mk outcome final => cases outcome <;> rfl

theorem run_mapM_cons (action : β → Descent σ N α) (item : β)
    (items : List β) (memory : Memory σ N) :
    ((item :: items).mapM action).run memory =
      match (action item).run memory with
      | (.ok result, later) =>
          ((result :: ·) <$> ((items.mapM action).run later).1,
            ((items.mapM action).run later).2)
      | (.error error, later) => (.error error, later) := by
  rw [List.mapM_cons, run_bind]
  cases (action item).run memory with
  | mk outcome later =>
      cases outcome with
      | error error => rfl
      | ok result => exact run_map (items.mapM action) (result :: ·) later

theorem run_accept (caching : Bool) (path : Path)
    (result : Evaluated N) (memory : Memory σ N) :
    (Descent.accept caching path result).run memory =
      match result with
      | .plain value =>
          (.ok (.plain value), { memory with
            store := if caching then memory.store.cacheValue path value
              else memory.store })
      | .shaped shape =>
          (if path.isField then .ok (.shaped shape)
            else .error (.typeMismatch path.text (.shapeInProperty shape.name)),
            memory) := by
  cases result with
  | plain value => cases caching <;> rfl
  | shaped shape =>
      cases isField : path.isField <;>
        simp only [Descent.accept, isField] <;> rfl

/-- The result that a slot accepts does not depend on caching. -/
theorem run_bind_accept_fst (caching : Bool) (path : Path)
    (action : Descent σ N (Evaluated N)) (memory : Memory σ N) :
    ((do
      let result ← action
      accept caching path result).run memory).1 =
      (action.run memory).1 >>= ByName.accepted path := by
  rw [run_bind]
  cases action.run memory with
  | mk outcome later =>
      cases outcome with
      | error error => rfl
      | ok result =>
          simp only [run_accept]
          cases result <;> rfl

end Descent

end DiagramEnergy
