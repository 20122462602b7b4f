import DiagramEnergy.Evaluator
import DiagramEnergy.Table.Lemmas

/-!
# Outline and contents of a store

A store is its outline, which says what objects, fields and properties there
are, together with the content of its scalar fields and properties.  Caching
keeps the outline and fills one symbolic content.  What a path asks of an
evaluation depends on the outline and on the content at that path only.
-/

namespace DiagramEnergy

variable {N : Type}

/-- Filling leaves concrete content alone. -/
def Content.fill (value : Value N) : Content N → Content N
  | .symbolic _ => .concrete value
  | .concrete old => .concrete old

namespace Slot

/-- What remains of a slot when its content is taken out. -/
def outline : Slot N → Option (String × List String)
  | .scalar _ => none
  | .shape kind properties => some (kind, properties.keys)

/-- The content that a path finds in the slot of its owner. -/
def contentAt : Path → Slot N → Option (Content N)
  | .field _ _, .scalar content => some content
  | .property _ _ name, .shape _ properties => properties.get? name
  | _, _ => none

def fill (value : Value N) : Path → Slot N → Slot N
  | .field _ _, .scalar content => .scalar (content.fill value)
  | .property _ _ name, .shape kind properties =>
      .shape kind (properties.modify name (·.fill value))
  | _, slot => slot

@[simp] theorem outline_fill (value : Value N) (path : Path) (slot : Slot N) :
    (slot.fill value path).outline = slot.outline := by
  cases path <;> cases slot <;> simp [fill, outline]

theorem contentAt_fill_self (value : Value N) (path : Path) (slot : Slot N) :
    (slot.fill value path).contentAt path =
      (slot.contentAt path).map (·.fill value) := by
  cases path <;> cases slot <;> simp [fill, contentAt, Table.get?_modify]

theorem contentAt_fill_of_ne {path other : Path} (value : Value N)
    (slot : Slot N) (sameOwner : other.owner = path.owner)
    (different : other ≠ path) :
    (slot.fill value path).contentAt other = slot.contentAt other := by
  cases path <;> cases other <;> cases slot <;>
    simp_all [fill, contentAt, Table.get?_modify, Path.owner, Path.object,
      Path.fieldName]

/-- Slots with the same outline and the same content are the same. -/
theorem ext_contentAt {left right : Slot N} (object name : String)
    (outlines : left.outline = right.outline)
    (field : left.contentAt (.field object name) =
      right.contentAt (.field object name))
    (property : ∀ property, left.contentAt (.property object name property) =
      right.contentAt (.property object name property)) :
    left = right := by
  cases left with
  | scalar leftContent =>
      cases right with
      | scalar rightContent => simpa [contentAt] using field
      | shape kind properties => simp [outline] at outlines
  | shape leftKind leftProperties =>
      cases right with
      | scalar content => simp [outline] at outlines
      | shape rightKind rightProperties =>
          simp only [outline, Option.some.injEq, Prod.mk.injEq] at outlines
          have tables : leftProperties = rightProperties :=
            Table.ext_get? property
          rw [outlines.1, tables]

end Slot

namespace Store

def slot? (store : Store N) (object name : String) : Option (Slot N) :=
  (store.objects.get? object).bind (·.get? name)

/-- The objects, fields, kinds and property names of a store. -/
def outline (store : Store N) :
    Table String (Table String (Option (String × List String))) :=
  store.objects.map (·.map Slot.outline)

/-- What a path asks for, when overrides answer first. -/
def demand (store : Store N) (overrides : Overrides N) (path : Path) :
    Except Error (Demand N) :=
  Demand.ofResolved <$> store.resolve overrides path

/-! ## Contents -/

theorem content?_eq_slot? (store : Store N) (path : Path) :
    store.content? path =
      (store.slot? path.object path.fieldName).bind (Slot.contentAt path) := by
  cases path with
  | field object name =>
      simp only [content?, lookup, field, fieldsOf, slot?, Path.object,
        Path.fieldName, Functor.map, Except.map, Bind.bind, Except.bind]
      cases store.objects.get? object with
      | none => rfl
      | some fields =>
          simp only [Option.bind_some]
          cases fields.get? name with
          | none => rfl
          | some slot => cases slot <;> rfl
  | property object name property =>
      simp only [content?, lookup, Store.property, field, fieldsOf, slot?,
        Path.object, Path.fieldName, Functor.map, Except.map, Bind.bind,
        Except.bind]
      cases store.objects.get? object with
      | none => rfl
      | some fields =>
          simp only [Option.bind_some]
          cases fields.get? name with
          | none => rfl
          | some slot =>
              cases slot with
              | scalar content => rfl
              | shape kind properties =>
                  simp only [Option.bind_some, Slot.contentAt]
                  cases properties.get? property <;> rfl

theorem content?_of_shape {store : Store N} {object name kind : String}
    {properties : Table String (Content N)}
    (found : store.slot? object name = some (.shape kind properties))
    (property : String) :
    store.content? (.property object name property) =
      properties.get? property := by
  rw [content?_eq_slot?]
  simp only [Path.object, Path.fieldName, found, Option.bind_some,
    Slot.contentAt]

theorem objects_cacheValue (store : Store N) (path : Path) (value : Value N) :
    (store.cacheValue path value).objects =
      store.objects.modify path.object fun fields =>
        fields.modify path.fieldName (Slot.fill value path) := by
  have keeps : (fun content : Content N =>
      match content with
      | .symbolic _ => .concrete value
      | .concrete _ => content) = Content.fill value := by
    funext content
    cases content <;> rfl
  simp only [cacheValue]
  congr
  funext fields
  congr
  funext slot
  cases path with
  | field object name =>
      cases slot with
      | scalar content => cases content <;> rfl
      | shape kind properties => rfl
  | property object name property =>
      cases slot with
      | scalar content => rfl
      | shape kind properties =>
          exact congrArg
            (fun keep => Slot.shape kind (properties.modify property keep)) keeps

theorem slot?_cacheValue (store : Store N) (path : Path) (value : Value N)
    (object name : String) :
    (store.cacheValue path value).slot? object name =
      if object = path.object ∧ name = path.fieldName then
        (store.slot? object name).map (Slot.fill value path)
      else store.slot? object name := by
  simp only [slot?, objects_cacheValue, Table.get?_modify]
  by_cases sameObject : object = path.object
  · cases found : store.objects.get? object with
    | none => simp
    | some fields =>
        by_cases sameName : name = path.fieldName
        · simp [sameObject, sameName, Table.get?_modify]
        · simp [sameObject, sameName, Table.get?_modify]
  · simp [sameObject]

/-- Caching fills the content at its path and no other. -/
theorem content?_cacheValue (store : Store N) (path other : Path)
    (value : Value N) :
    (store.cacheValue path value).content? other =
      if other = path then (store.content? path).map (·.fill value)
      else store.content? other := by
  rw [content?_eq_slot?, content?_eq_slot?, content?_eq_slot?,
    slot?_cacheValue]
  by_cases sameOwner : other.object = path.object ∧
      other.fieldName = path.fieldName
  · have owners : other.owner = path.owner := by
      simp [Path.owner, sameOwner.1, sameOwner.2]
    rw [if_pos sameOwner, sameOwner.1, sameOwner.2]
    cases store.slot? path.object path.fieldName with
    | none => simp
    | some slot =>
        simp only [Option.map_some, Option.bind_some]
        by_cases same : other = path
        · rw [if_pos same, same]
          exact Slot.contentAt_fill_self value path slot
        · rw [if_neg same]
          exact Slot.contentAt_fill_of_ne value slot owners same
  · have different : other ≠ path := by
      intro same
      exact sameOwner (by simp [same])
    rw [if_neg sameOwner, if_neg different]

@[simp] theorem outline_cacheValue (store : Store N) (path : Path)
    (value : Value N) :
    (store.cacheValue path value).outline = store.outline := by
  apply Table.ext_get?
  intro object
  simp only [outline, Table.get?_map, objects_cacheValue, Table.get?_modify]
  split
  · cases store.objects.get? object with
    | none => rfl
    | some fields =>
        simp only [Option.map_some, Option.some.injEq]
        apply Table.ext_get?
        intro name
        simp only [Table.get?_map, Table.get?_modify]
        split
        · cases fields.get? name <;> simp
        · rfl
  · rfl

/-! ## Stores with the same outline -/

theorem isSome_object_of_outline {left right : Store N}
    (outlines : left.outline = right.outline) (object : String) :
    (left.objects.get? object).isSome = (right.objects.get? object).isSome := by
  have same := congrArg (·.get? object) outlines
  simp only [outline, Table.get?_map] at same
  simpa using congrArg Option.isSome same

theorem slot?_outline {left right : Store N}
    (outlines : left.outline = right.outline) (object name : String) :
    (left.slot? object name).map Slot.outline =
      (right.slot? object name).map Slot.outline := by
  have same := congrArg (fun table : Table String (Table String _) =>
    (table.get? object).bind (·.get? name)) outlines
  simp only [outline, Table.get?_map, Option.bind_map] at same
  simpa only [slot?, Function.comp_def, Table.get?_map, Option.map_bind]
    using same

/-- A store is determined by its objects and their slots. -/
theorem ext_slot? {left right : Store N}
    (declared : ∀ object, (left.objects.get? object).isSome =
      (right.objects.get? object).isSome)
    (slots : ∀ object name,
      left.slot? object name = right.slot? object name) :
    left = right := by
  have objects : left.objects = right.objects := by
    apply Table.ext_get?
    intro object
    have sameObject := declared object
    have sameFields := slots object
    simp only [slot?] at sameFields
    cases leftFields : left.objects.get? object with
    | none =>
        cases rightFields : right.objects.get? object with
        | none => rfl
        | some fields => simp [leftFields, rightFields] at sameObject
    | some leftTable =>
        cases rightFields : right.objects.get? object with
        | none => simp [leftFields, rightFields] at sameObject
        | some rightTable =>
            rw [leftFields, rightFields] at sameFields
            congr 1
            exact Table.ext_get? sameFields
  cases left
  cases right
  simpa using objects

/-- A store is determined by its outline and its contents. -/
theorem ext_content? {left right : Store N}
    (outlines : left.outline = right.outline)
    (contents : ∀ path, left.content? path = right.content? path) :
    left = right := by
  apply ext_slot? (isSome_object_of_outline outlines)
  intro object name
  have shapes := slot?_outline outlines object name
  have atPath : ∀ path : Path, path.object = object →
      path.fieldName = name →
      (left.slot? object name).bind (Slot.contentAt path) =
        (right.slot? object name).bind (Slot.contentAt path) := by
    intro path sameObject sameName
    have same := contents path
    rw [content?_eq_slot?, content?_eq_slot?] at same
    rw [← sameObject, ← sameName]
    exact same
  cases leftSlot : left.slot? object name with
  | none =>
      rw [leftSlot] at shapes
      cases rightSlot : right.slot? object name with
      | none => rfl
      | some slot => simp [rightSlot] at shapes
  | some leftFound =>
      cases rightSlot : right.slot? object name with
      | none => simp [leftSlot, rightSlot] at shapes
      | some rightFound =>
          rw [leftSlot, rightSlot] at shapes atPath
          congr 1
          apply Slot.ext_contentAt object name
          · simpa using shapes
          · exact atPath (.field object name) rfl rfl
          · intro property
            exact atPath (.property object name property) rfl rfl

end Store

end DiagramEnergy
