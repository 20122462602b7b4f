import DiagramEnergy.Proofs.Store.Contents

/-!
# Writing into a store

A path accepts values when there is a slot of its own sort: a scalar for a
field, a shape for a property.  Writing there changes the content at that path
only and leaves every slot the sort that it was.
-/

namespace DiagramEnergy

variable {N : Type}

namespace Slot

/-- Whether a slot has the sort that a path writes to. -/
def fits : Path → Slot N → Bool
  | .field _ _, .scalar _ => true
  | .property _ _ _, .shape _ _ => true
  | _, _ => false

/-- A slot with a value written where a path leads. -/
def put (value : Value N) : Path → Slot N → Slot N
  | .field _ _, .scalar _ => .scalar (.concrete value)
  | .property _ _ name, .shape kind properties =>
      .shape kind (properties.insert name (.concrete value))
  | _, slot => slot

@[simp] theorem fits_put (value : Value N) (path other : Path)
    (slot : Slot N) : (slot.put value path).fits other = slot.fits other := by
  cases path <;> cases slot <;> cases other <;> rfl

theorem contentAt_put_self {path : Path} {slot : Slot N} (value : Value N)
    (fitting : slot.fits path = true) :
    (slot.put value path).contentAt path = some (.concrete value) := by
  cases path <;> cases slot <;> simp_all [fits, put, contentAt]

theorem contentAt_put_of_ne {path other : Path} (value : Value N)
    (slot : Slot N) (fitting : slot.fits path = true)
    (sameOwner : other.owner = path.owner) (different : other ≠ path) :
    (slot.put value path).contentAt other = slot.contentAt other := by
  cases path <;> cases other <;> cases slot <;>
    simp_all [fits, put, contentAt, Table.get?_insert, Path.owner, Path.object,
      Path.fieldName]

/-- The kind of the shape in a slot. -/
def kind? : Slot N → Option String
  | .scalar _ => none
  | .shape kind _ => some kind

theorem kind?_eq_some_iff {slot : Slot N} {kind : String} :
    slot.kind? = some kind ↔ ∃ properties, slot = .shape kind properties := by
  cases slot <;> simp [kind?]

end Slot

namespace Store

/-- The kind of the shape at a field. -/
def kind? (store : Store N) (object name : String) : Option String :=
  (store.slot? object name).bind Slot.kind?

theorem kind?_eq_some_iff {store : Store N} {object name kind : String} :
    store.kind? object name = some kind ↔
      ∃ properties, store.slot? object name = some (.shape kind properties) := by
  simp only [kind?, Option.bind_eq_some_iff, Slot.kind?_eq_some_iff]
  constructor
  · rintro ⟨_, found, properties, rfl⟩
    exact ⟨properties, found⟩
  · rintro ⟨properties, found⟩
    exact ⟨_, found, properties, rfl⟩

def Accepts (store : Store N) (path : Path) : Prop :=
  ∃ slot, store.slot? path.object path.fieldName = some slot ∧
    slot.fits path = true

theorem slot?_bind {store : Store N} {object name : String}
    {fields : Table String (Slot N)} {slot : Slot N}
    (declared : store.objects.get? object = some fields)
    (other field : String) :
    (store.bind object name slot).slot? other field =
      if other = object ∧ field = name then some slot
      else store.slot? other field := by
  simp only [bind, slot?, Table.get?_modify]
  by_cases sameObject : other = object
  · subst sameObject
    by_cases sameName : field = name
    · simp [declared, sameName]
    · simp [declared, sameName, Table.get?_insert]
  · simp [sameObject]

theorem kind?_bind {store : Store N} {object name : String}
    {fields : Table String (Slot N)} {slot : Slot N}
    (declared : store.objects.get? object = some fields)
    (sameKind : slot.kind? = (fields.get? name).bind Slot.kind?)
    (other field : String) :
    (store.bind object name slot).kind? other field =
      store.kind? other field := by
  rw [kind?, slot?_bind declared]
  by_cases here : other = object ∧ field = name
  · rw [if_pos here, here.1, here.2]
    simp only [kind?, slot?, declared, Option.bind_some]
    exact sameKind
  · rw [if_neg here]
    rfl

/-- Writing changes no kind, adds no shape and removes none. -/
theorem kind?_setValue? {store written : Store N} {path : Path}
    {value : Value N} (wrote : store.setValue? path value = some written)
    (other field : String) :
    written.kind? other field = store.kind? other field := by
  unfold setValue? at wrote
  cases declared : store.objects.get? path.object with
  | none =>
      rw [declared] at wrote
      cases wrote
  | some fields =>
      simp only [declared] at wrote
      cases path with
      | field object name =>
          cases found : fields.get? name with
          | none =>
              simp only [Path.fieldName, found] at wrote
              cases wrote
              exact kind?_bind declared (by rw [found]; rfl) other field
          | some slot =>
              cases slot with
              | shape kind properties => simp [Path.fieldName, found] at wrote
              | scalar content =>
                  simp only [Path.fieldName, found] at wrote
                  cases wrote
                  exact kind?_bind declared (by rw [found]; rfl) other field
      | property object name property =>
          cases found : fields.get? name with
          | none => simp [Path.fieldName, found] at wrote
          | some slot =>
              cases slot with
              | scalar content => simp [Path.fieldName, found] at wrote
              | shape kind properties =>
                  simp only [Path.fieldName, found] at wrote
                  cases wrote
                  exact kind?_bind declared (by rw [found]; rfl) other field

theorem objectNames_bind (store : Store N) (object name : String)
    (slot : Slot N) :
    (store.bind object name slot).objectNames = store.objectNames := by
  simp only [objectNames, bind, Table.keys_modify]

/-- Writing declares no object. -/
theorem objectNames_setValue? {store written : Store N} {path : Path}
    {value : Value N} (wrote : store.setValue? path value = some written) :
    written.objectNames = store.objectNames := by
  unfold setValue? at wrote
  split at wrote
  case h_1 => cases wrote
  case h_2 =>
    split at wrote
    case h_1 => cases wrote
    case h_2 =>
      cases wrote
      exact objectNames_bind ..
    case h_3 =>
      cases wrote
      exact objectNames_bind ..
    case h_4 => cases wrote

/-- Where a path accepts values, writing changes its slot and no other. -/
theorem setValue?_of_accepts {store : Store N} {path : Path}
    (accepts : store.Accepts path) (value : Value N) :
    ∃ written, store.setValue? path value = some written ∧
      ∀ object name, written.slot? object name =
        if object = path.object ∧ name = path.fieldName then
          (store.slot? object name).map (Slot.put value path)
        else store.slot? object name := by
  obtain ⟨slot, found, fitting⟩ := accepts
  have split := found
  simp only [slot?] at split
  cases declared : store.objects.get? path.object with
  | none => simp [declared] at split
  | some fields =>
      simp only [declared, Option.bind_some] at split
      refine ⟨store.bind path.object path.fieldName (slot.put value path), ?_,
        ?_⟩
      · simp only [setValue?, declared, split]
        cases path <;> cases slot <;> simp_all [Slot.fits, Slot.put, Path.object,
          Path.fieldName]
      · intro object name
        rw [slot?_bind declared]
        split
        · rename_i same
          rw [same.1, same.2, found]
          rfl
        · rfl

/-- What is left of a store after a write. -/
structure Written (store : Store N) (path : Path) (value : Value N)
    (written : Store N) : Prop where
  contents : ∀ other, written.content? other =
    if other = path then some (.concrete value) else store.content? other
  accepts : ∀ other, store.Accepts other → written.Accepts other
  slots : ∀ object name, ¬ (object = path.object ∧ name = path.fieldName) →
    written.slot? object name = store.slot? object name

theorem written_of_accepts {store : Store N} {path : Path}
    (accepts : store.Accepts path) (value : Value N) :
    ∃ written, store.setValue? path value = some written ∧
      Written store path value written := by
  obtain ⟨written, wrote, slots⟩ := setValue?_of_accepts accepts value
  obtain ⟨slot, found, fitting⟩ := accepts
  refine ⟨written, wrote, ?_, ?_, ?_⟩
  · intro other
    rw [content?_eq_slot?, content?_eq_slot?, slots]
    by_cases sameOwner : other.object = path.object ∧
        other.fieldName = path.fieldName
    · have owners : other.owner = path.owner := by
        simp [Path.owner, sameOwner.1, sameOwner.2]
      rw [if_pos sameOwner, sameOwner.1, sameOwner.2, found]
      simp only [Option.map_some, Option.bind_some]
      by_cases same : other = path
      · rw [if_pos same, same]
        exact Slot.contentAt_put_self value fitting
      · rw [if_neg same]
        exact Slot.contentAt_put_of_ne value slot fitting owners same
    · have different : other ≠ path := by
        intro same
        exact sameOwner (by simp [same])
      rw [if_neg sameOwner, if_neg different]
  · rintro other ⟨otherSlot, there, otherFitting⟩
    by_cases sameOwner : other.object = path.object ∧
        other.fieldName = path.fieldName
    · refine ⟨otherSlot.put value path, ?_, by simpa using otherFitting⟩
      rw [slots, if_pos sameOwner, there]
      rfl
    · refine ⟨otherSlot, ?_, otherFitting⟩
      rw [slots, if_neg sameOwner, there]
  · intro object name elsewhere
    rw [slots, if_neg elsewhere]

end Store

end DiagramEnergy
