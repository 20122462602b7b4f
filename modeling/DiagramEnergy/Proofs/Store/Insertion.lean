import DiagramEnergy.Store

/-!
# Insertion

An insertion looks at the store first and binds a slot only when nothing can
fail any more, so one that fails has not changed the store.  A batch may have
bound some slots before it fails; it is inserted into a copy, and the copy is
lost with it.
-/

namespace DiagramEnergy

variable {N α β : Type}

namespace Insertion

/-- An insertion that goes on with what it has found in the store. -/
theorem look_apply (look : Store N → Except Error α)
    (next : Store N → α → Insertion N β) (store : Store N) :
    (do
      let store ← get
      let found ← MonadExcept.ofExcept (look store)
      next store found : Insertion N β) store =
      match look store with
      | .ok found => next store found store
      | .error error => .error error store := by
  change (MonadExcept.ofExcept (look store) >>= next store) store = _
  cases look store with
  | ok found => rfl
  | error error => rfl

/-- Whether an insertion leaves the store as it was when it fails. -/
def IsAtomic (insertion : Insertion N Unit) : Prop :=
  ∀ store error later, insertion store = .error error later → later = store

theorem IsAtomic.of_cases {insertion : Insertion N Unit}
    (ends : ∀ store, (∃ later, insertion store = .ok () later) ∨
      ∃ error, insertion store = .error error store) : insertion.IsAtomic := by
  intro store error later failed
  rcases ends store with ⟨reached, inserted⟩ | ⟨found, unchanged⟩
  · rw [inserted] at failed
    cases failed
  · rw [unchanged] at failed
    cases failed
    rfl

theorem staged_apply (insertion : Insertion N Unit) (store : Store N) :
    insertion.staged store =
      match insertion store with
      | .ok _ copy => .ok () copy
      | .error error _ => .error error store := by
  change (match insertion store with
    | .ok _ copy => set copy
    | .error error _ => throw error : Insertion N Unit) store = _
  cases insertion store with
  | ok result copy => rfl
  | error error copy => rfl

theorem staged_eq_ok_iff {insertion : Insertion N Unit}
    {store later : Store N} :
    insertion.staged store = .ok () later ↔ insertion store = .ok () later := by
  rw [staged_apply]
  cases insertion store with
  | ok result copy => exact Iff.rfl
  | error error copy => simp

/-- On a copy, no insertion can leave anything behind when it fails. -/
theorem isAtomic_staged (insertion : Insertion N Unit) :
    insertion.staged.IsAtomic := by
  apply IsAtomic.of_cases
  intro store
  rw [staged_apply]
  cases insertion store with
  | ok result copy => exact .inl ⟨copy, rfl⟩
  | error error copy => exact .inr ⟨error, rfl⟩

end Insertion

namespace Store

/-! ## What an insertion can do -/

theorem insertSlot_cases (store : Store N) (object name : String)
    (slot : Slot N) :
    (∃ fields, store.objects.get? object = some fields ∧
      fields.get? name = none ∧
      insertSlot object name slot store =
        .ok () (store.bind object name slot)) ∨
    ∃ error, insertSlot object name slot store = .error error store := by
  rw [insertSlot, Insertion.look_apply, fieldsOf]
  cases declared : store.objects.get? object with
  | none => exact .inr ⟨_, rfl⟩
  | some fields =>
      dsimp only
      cases bound : fields.get? name with
      | some present => exact .inr ⟨_, rfl⟩
      | none => exact .inl ⟨fields, rfl, bound, rfl⟩

theorem insertPath_property_cases (store : Store N)
    (object name property : String) (content : Content N) :
    (∃ fields kind properties, store.objects.get? object = some fields ∧
      fields.get? name = some (.shape kind properties) ∧
      properties.get? property = none ∧
      insertPath (.property object name property) content store =
        .ok () (store.bind object name
          (.shape kind (properties.insert property content)))) ∨
    ∃ error, insertPath (.property object name property) content store =
      .error error store := by
  simp only [insertPath, Insertion.look_apply, fieldsOf]
  cases declared : store.objects.get? object with
  | none => exact .inr ⟨_, rfl⟩
  | some fields =>
      dsimp only
      cases bound : fields.get? name with
      | none => exact .inr ⟨_, rfl⟩
      | some slot =>
          cases slot with
          | scalar present => exact .inr ⟨_, rfl⟩
          | shape kind properties =>
              dsimp only
              cases found : properties.get? property with
              | some present => exact .inr ⟨_, rfl⟩
              | none =>
                  exact .inl ⟨fields, kind, properties, rfl, bound, found, rfl⟩

/-! ## Insertions that succeed -/

theorem insertSlot_ok {store later : Store N} {object name : String}
    {slot : Slot N}
    (inserted : insertSlot object name slot store = .ok () later) :
    ∃ fields, store.objects.get? object = some fields ∧
      fields.get? name = none ∧ later = store.bind object name slot := by
  rcases insertSlot_cases store object name slot with
    ⟨fields, declared, fresh, bound⟩ | ⟨error, failed⟩
  · rw [bound] at inserted
    cases inserted
    exact ⟨fields, declared, fresh, rfl⟩
  · rw [failed] at inserted
    cases inserted

theorem insertPath_property_ok {store later : Store N}
    {object name property : String} {content : Content N}
    (inserted : insertPath (.property object name property) content store =
      .ok () later) :
    ∃ fields kind properties, store.objects.get? object = some fields ∧
      fields.get? name = some (.shape kind properties) ∧
      properties.get? property = none ∧
      later = store.bind object name
        (.shape kind (properties.insert property content)) := by
  rcases insertPath_property_cases store object name property content with
    ⟨fields, kind, properties, declared, found, fresh, bound⟩ | ⟨error, failed⟩
  · rw [bound] at inserted
    cases inserted
    exact ⟨fields, kind, properties, declared, found, fresh, rfl⟩
  · rw [failed] at inserted
    cases inserted

/-! ## Insertions that fail -/

theorem isAtomic_insertSlot (object name : String) (slot : Slot N) :
    (insertSlot object name slot).IsAtomic := by
  apply Insertion.IsAtomic.of_cases
  intro store
  rcases insertSlot_cases store object name slot with
    ⟨_, _, _, bound⟩ | unchanged
  · exact .inl ⟨_, bound⟩
  · exact .inr unchanged

theorem isAtomic_insertPath (path : Path) (content : Content N) :
    (insertPath path content).IsAtomic := by
  cases path with
  | field object name => exact isAtomic_insertSlot object name (.scalar content)
  | property object name property =>
      apply Insertion.IsAtomic.of_cases
      intro store
      rcases insertPath_property_cases store object name property content with
        ⟨_, _, _, _, _, _, bound⟩ | unchanged
      · exact .inl ⟨_, bound⟩
      · exact .inr unchanged

theorem isAtomic_insertPaths (paths : List Path)
    (contents : List (Content N)) : (insertPaths paths contents).IsAtomic := by
  unfold insertPaths
  split
  · exact Insertion.isAtomic_staged _
  · intro store error later failed
    cases failed
    rfl

/-! ## Batches -/

/-- A batch goes in just if it has as many paths as contents and they can be
inserted one after the other. -/
theorem insertPaths_eq_ok_iff_insertEach {store later : Store N}
    {paths : List Path} {contents : List (Content N)} :
    insertPaths paths contents store = .ok () later ↔
      paths.length = contents.length ∧
        insertEach (paths.zip contents) store = .ok () later := by
  unfold insertPaths
  split
  case isTrue sameLength =>
    rw [Insertion.staged_eq_ok_iff, and_iff_right sameLength]
  case isFalse different =>
    refine iff_of_false ?_ (fun inserted => different inserted.1)
    intro inserted
    cases inserted

theorem insertEach_cons_eq_ok_iff {store later : Store N} {path : Path}
    {content : Content N} {batch : List (Path × Content N)} :
    insertEach ((path, content) :: batch) store = .ok () later ↔
      ∃ staged, insertPath path content store = .ok () staged ∧
        insertEach batch staged = .ok () later := by
  change (insertPath path content >>= fun _ => insertEach batch) store = _ ↔ _
  simp only [Bind.bind, EStateM.bind]
  cases insertPath path content store with
  | ok result staged => simp
  | error error staged => simp

end Store

end DiagramEnergy
