import DiagramEnergy.Proofs.Store.Filling
import DiagramEnergy.Proofs.Store.Insertion
import DiagramEnergy.Proofs.Store.Writing

/-!
# What lasts in a store

A store persists in a later one when all its objects, fields and properties are
still there, scalars as scalars and shapes with their kinds, and every content
is the same or was symbolic and has become concrete.  Caching, filling,
declarations and insertions all make stores persist; a sampled value, which
replaces what was there, need not.
-/

namespace DiagramEnergy

variable {N : Type}

/-- Concrete content stays; symbolic content stays or becomes concrete. -/
def Content.Persists (earlier later : Content N) : Prop :=
  later = earlier ∨ earlier.isSymbolic = true ∧ later.isSymbolic = false

namespace Content.Persists

theorem refl (content : Content N) : content.Persists content := .inl rfl

theorem trans {earlier later last : Content N}
    (first : earlier.Persists later) (second : later.Persists last) :
    earlier.Persists last := by
  rcases first with rfl | ⟨symbolic, concrete⟩
  · exact second
  · rcases second with rfl | ⟨symbolicLater, -⟩
    · exact .inr ⟨symbolic, concrete⟩
    · rw [concrete] at symbolicLater
      cases symbolicLater

theorem concrete {value : Value N} {later : Content N}
    (persists : (Content.concrete value).Persists later) :
    later = .concrete value := by
  rcases persists with same | ⟨symbolic, -⟩
  · exact same
  · cases symbolic

theorem symbolic {expr : Expr} {later : Content N}
    (persists : (Content.symbolic expr : Content N).Persists later) :
    later = .symbolic expr ∨ ∃ value, later = .concrete value := by
  rcases persists with same | ⟨-, concrete⟩
  · exact .inl same
  · cases later with
    | symbolic other => cases concrete
    | concrete value => exact .inr ⟨value, rfl⟩

end Content.Persists

/-- A scalar persists in a scalar and a shape in one of its kind that has all
its properties. -/
inductive Slot.Persists : Slot N → Slot N → Prop where
  | scalar {earlier later : Content N} :
      earlier.Persists later → Persists (.scalar earlier) (.scalar later)
  | shape {kind : String} {earlier later : Table String (Content N)} :
      (∀ name content, earlier.get? name = some content →
        ∃ present, later.get? name = some present ∧
          content.Persists present) →
      Persists (.shape kind earlier) (.shape kind later)

namespace Slot.Persists

theorem refl (slot : Slot N) : slot.Persists slot := by
  cases slot with
  | scalar content => exact .scalar (.refl content)
  | shape kind properties =>
      exact .shape fun name content found => ⟨content, found, .refl content⟩

theorem trans {earlier later last : Slot N} (first : earlier.Persists later)
    (second : later.Persists last) : earlier.Persists last := by
  cases first with
  | scalar first =>
      cases second with
      | scalar second => exact .scalar (first.trans second)
  | shape first =>
      cases second with
      | shape second =>
          apply Slot.Persists.shape
          intro name content found
          obtain ⟨present, foundLater, persists⟩ := first name content found
          obtain ⟨final, foundLast, persistsLater⟩ :=
            second name present foundLater
          exact ⟨final, foundLast, persists.trans persistsLater⟩

theorem contentAt {earlier later : Slot N} (persists : earlier.Persists later)
    {path : Path} {content : Content N}
    (found : earlier.contentAt path = some content) :
    ∃ present, later.contentAt path = some present ∧
      content.Persists present := by
  cases persists with
  | scalar persists =>
      cases path with
      | field object name =>
          cases found
          exact ⟨_, rfl, persists⟩
      | property object name property => cases found
  | shape persists =>
      cases path with
      | field object name => cases found
      | property object name property => exact persists property content found

end Slot.Persists

namespace Store

/-- Whether all that is bound in a store is still bound in a later one. -/
structure Persists (earlier later : Store N) : Prop where
  objects : ∀ object, earlier.hasObject object = true →
    later.hasObject object = true
  slots : ∀ object name slot, earlier.slot? object name = some slot →
    ∃ present, later.slot? object name = some present ∧ slot.Persists present

namespace Persists

variable {earlier later : Store N}

theorem refl (store : Store N) : store.Persists store :=
  ⟨fun _ declared => declared,
    fun _ _ slot found => ⟨slot, found, .refl slot⟩⟩

theorem trans {last : Store N} (first : earlier.Persists later)
    (second : later.Persists last) : earlier.Persists last := by
  constructor
  · intro object declared
    exact second.objects object (first.objects object declared)
  · intro object name slot found
    obtain ⟨present, foundLater, persists⟩ := first.slots object name slot found
    obtain ⟨final, foundLast, persistsLater⟩ :=
      second.slots object name present foundLater
    exact ⟨final, foundLast, persists.trans persistsLater⟩

theorem content? (persists : earlier.Persists later) {path : Path}
    {content : Content N} (found : earlier.content? path = some content) :
    ∃ present, later.content? path = some present ∧
      content.Persists present := by
  rw [content?_eq_slot?, Option.bind_eq_some_iff] at found
  obtain ⟨slot, bound, holds⟩ := found
  obtain ⟨slotLater, boundLater, slotPersists⟩ :=
    persists.slots path.object path.fieldName slot bound
  obtain ⟨present, holdsLater, contentPersists⟩ := slotPersists.contentAt holds
  refine ⟨present, ?_, contentPersists⟩
  rw [content?_eq_slot?, boundLater]
  exact holdsLater

theorem scalar (persists : earlier.Persists later) {object name : String}
    {content : Content N}
    (found : earlier.slot? object name = some (.scalar content)) :
    ∃ present, later.slot? object name = some (.scalar present) := by
  obtain ⟨slot, foundLater, slotPersists⟩ := persists.slots object name _ found
  cases slotPersists
  exact ⟨_, foundLater⟩

theorem shape (persists : earlier.Persists later) {object name kind : String}
    {properties : Table String (Content N)}
    (found : earlier.slot? object name = some (.shape kind properties)) :
    ∃ present, later.slot? object name = some (.shape kind present) ∧
      ∀ property ∈ properties.keys, property ∈ present.keys := by
  obtain ⟨slot, foundLater, slotPersists⟩ := persists.slots object name _ found
  cases slotPersists with
  | @shape _ _ present keeps =>
      refine ⟨present, foundLater, ?_⟩
      intro property listed
      rw [Table.mem_keys_iff] at listed ⊢
      obtain ⟨content, holds⟩ := Option.isSome_iff_exists.1 listed
      obtain ⟨contentLater, holdsLater, -⟩ := keeps property content holds
      rw [holdsLater]
      rfl

end Persists

/-! ## What makes a store persist -/

theorem Filled.content?_persists {overrides : Overrides N}
    {rule : Path → Value N → Prop} {start later : Store N}
    (filled : start.Filled overrides rule later) (path : Path)
    {content present : Content N} (found : start.content? path = some content)
    (foundLater : later.content? path = some present) :
    content.Persists present := by
  rcases filled.contents path with same | ⟨expr, value, asked, -, holds⟩
  · rw [found, foundLater] at same
    cases same
    exact .refl content
  · have symbolic := (demand_evaluate_iff.1 asked).2
    rw [found] at symbolic
    rw [foundLater] at holds
    cases symbolic
    cases holds
    exact .inr ⟨rfl, rfl⟩

/-- Whatever fills a store makes it persist. -/
theorem Filled.persists {overrides : Overrides N}
    {rule : Path → Value N → Prop} {start later : Store N}
    (filled : start.Filled overrides rule later) : start.Persists later := by
  constructor
  · intro object declared
    exact (isSome_object_of_outline filled.outline object).trans declared
  · intro object name slot found
    have outlines := slot?_outline filled.outline object name
    rw [found] at outlines
    cases foundLater : later.slot? object name with
    | none => simp [foundLater] at outlines
    | some present =>
        rw [foundLater] at outlines
        refine ⟨present, rfl, ?_⟩
        cases slot with
        | scalar content =>
            cases present with
            | shape kind properties => simp [Slot.outline] at outlines
            | scalar contentLater =>
                apply Slot.Persists.scalar
                apply filled.content?_persists (.field object name)
                · rw [content?_eq_slot?, Path.object, Path.fieldName, found]
                  rfl
                · rw [content?_eq_slot?, Path.object, Path.fieldName, foundLater]
                  rfl
        | shape kind properties =>
            cases present with
            | scalar content => simp [Slot.outline] at outlines
            | shape kindLater propertiesLater =>
                simp only [Slot.outline, Option.map_some, Option.some.injEq,
                  Prod.mk.injEq] at outlines
                obtain ⟨rfl, sameKeys⟩ := outlines
                apply Slot.Persists.shape
                intro property content holds
                have listed : property ∈ propertiesLater.keys := by
                  rw [sameKeys, Table.mem_keys_iff, holds]
                  rfl
                rw [Table.mem_keys_iff] at listed
                obtain ⟨contentLater, holdsLater⟩ :=
                  Option.isSome_iff_exists.1 listed
                refine ⟨contentLater, holdsLater, ?_⟩
                apply filled.content?_persists
                  (.property object name property)
                · rw [content?_eq_slot?, Path.object, Path.fieldName, found]
                  exact holds
                · rw [content?_eq_slot?, Path.object, Path.fieldName, foundLater]
                  exact holdsLater

theorem persists_declare (store : Store N) (name : String) :
    store.Persists (store.declare name) := by
  unfold declare
  cases declared : store.objects.get? name with
  | some fields => exact .refl store
  | none =>
      constructor
      · intro object present
        simp only [hasObject, Table.contains, Table.get?_insert] at present ⊢
        split
        · rfl
        · exact present
      · intro object field slot found
        have different : object ≠ name := by
          rintro rfl
          simp [slot?, declared] at found
        refine ⟨slot, ?_, .refl slot⟩
        simpa only [slot?, Table.get?_insert, if_neg different] using found

/-- A store persists under a binding in which the bound slot persists. -/
theorem persists_bind {store : Store N} {object name : String}
    {fields : Table String (Slot N)} {slot : Slot N}
    (declared : store.objects.get? object = some fields)
    (keeps : ∀ present, fields.get? name = some present →
      present.Persists slot) :
    store.Persists (store.bind object name slot) := by
  constructor
  · intro other present
    simp only [hasObject, Table.contains, bind, Table.get?_modify] at present ⊢
    split
    · rw [Option.isSome_map]
      exact present
    · exact present
  · intro other field present found
    rw [slot?_bind declared]
    by_cases here : other = object ∧ field = name
    · obtain ⟨rfl, rfl⟩ := here
      simp only [slot?, declared, Option.bind_some] at found
      exact ⟨slot, by simp, keeps present found⟩
    · rw [if_neg here]
      exact ⟨present, found, .refl present⟩

theorem persists_insertSlot {store later : Store N} {object name : String}
    {slot : Slot N}
    (inserted : insertSlot object name slot store = .ok () later) :
    store.Persists later := by
  obtain ⟨fields, declared, fresh, rfl⟩ := insertSlot_ok inserted
  apply persists_bind declared
  intro present bound
  rw [fresh] at bound
  cases bound

theorem persists_insertPath {store later : Store N} {path : Path}
    {content : Content N}
    (inserted : insertPath path content store = .ok () later) :
    store.Persists later := by
  cases path with
  | field object name => exact persists_insertSlot inserted
  | property object name property =>
      obtain ⟨fields, kind, properties, declared, bound, fresh, rfl⟩ :=
        insertPath_property_ok inserted
      apply persists_bind declared
      intro slot found
      rw [bound] at found
      cases found
      apply Slot.Persists.shape
      intro other present holds
      have different : other ≠ property := by
        rintro rfl
        rw [fresh] at holds
        cases holds
      refine ⟨present, ?_, .refl present⟩
      rw [Table.get?_insert, if_neg different]
      exact holds

theorem persists_insertEach (batch : List (Path × Content N))
    {store later : Store N}
    (inserted : insertEach batch store = .ok () later) :
    store.Persists later := by
  induction batch generalizing store with
  | nil =>
      cases inserted
      exact .refl _
  | cons entry batch induction =>
      obtain ⟨staged, first, rest⟩ := insertEach_cons_eq_ok_iff.1 inserted
      exact (persists_insertPath first).trans (induction rest)

theorem persists_insertPaths {store later : Store N} {paths : List Path}
    {contents : List (Content N)}
    (inserted : insertPaths paths contents store = .ok () later) :
    store.Persists later :=
  persists_insertEach _ (insertPaths_eq_ok_iff_insertEach.1 inserted).2

end Store

end DiagramEnergy
