import DiagramEnergy.Analysis
import DiagramEnergy.Proofs.Store.Contents

/-!
# Which paths the analysis finds

A store lists each of its slots once, under its object and name.  The paths
that vary, the properties that sampling has to provide, and the properties that
shapes list are described by what their slots hold and by the catalog; none of
them is listed twice.
-/

namespace DiagramEnergy

variable {N : Type}

theorem Content.isVary_iff {content : Content N} :
    content.isVary = true ↔ content = .symbolic .vary := by
  cases content with
  | concrete value => simp [isVary]
  | symbolic expr => cases expr <;> simp [isVary]

namespace Store

theorem mem_slots_iff {store : Store N} {object name : String}
    {slot : Slot N} :
    (object, name, slot) ∈ store.slots ↔
      store.slot? object name = some slot := by
  simp only [slots, List.mem_flatMap, List.mem_map, Prod.mk.injEq, Prod.exists,
    slot?, Option.bind_eq_some_iff, Table.get?_eq_some_iff]
  constructor
  · rintro ⟨_, fields, declared, _, _, found, rfl, rfl, rfl⟩
    exact ⟨fields, declared, found⟩
  · rintro ⟨fields, declared, found⟩
    exact ⟨object, fields, declared, name, slot, found, rfl, rfl, rfl⟩

/-- No two slots have the same object and name. -/
theorem slots_pairwise (store : Store N) :
    store.slots.Pairwise fun left right =>
      (left.1, left.2.1) ≠ (right.1, right.2.1) := by
  have objects := store.objects.keys_nodup
  simp only [Table.keys, List.Nodup, List.pairwise_map] at objects
  rw [slots, List.pairwise_flatMap]
  constructor
  · rintro ⟨object, fields⟩ _
    have names := fields.keys_nodup
    simp only [Table.keys, List.Nodup, List.pairwise_map] at names
    rw [List.pairwise_map]
    apply names.imp
    intro left right different
    simpa using different
  · apply objects.imp
    intro left right different
    simp only [List.mem_map]
    rintro _ ⟨leftField, _, rfl⟩ _ ⟨rightField, _, rfl⟩
    simp [different]

/-- A property of a shape has one definition. -/
theorem same_definition {store : Store N} {catalog : Catalog}
    {object name property kind kind' : String}
    {properties properties' : Table String (Content N)}
    {shape shape' : ShapeDef} {definition definition' : PropertyDef}
    (found : store.slot? object name = some (.shape kind properties))
    (known : catalog.get? kind = some shape)
    (listed : shape.properties.get? property = some definition)
    (found' : store.slot? object name = some (.shape kind' properties'))
    (known' : catalog.get? kind' = some shape')
    (listed' : shape'.properties.get? property = some definition') :
    properties' = properties ∧ definition' = definition := by
  rw [found] at found'
  cases found'
  rw [known] at known'
  cases known'
  rw [listed] at listed'
  cases listed'
  exact ⟨rfl, rfl⟩

/-! ## Varying paths -/

/-- The paths that an optimizer controls. -/
inductive Varies (store : Store N) (catalog : Catalog) : Path → Prop where
  | field {object name : String} :
      store.slot? object name = some (.scalar (.symbolic .vary)) →
      Varies store catalog (.field object name)
  | property {object name property kind : String}
      {properties : Table String (Content N)} {shape : ShapeDef}
      {definition : PropertyDef} :
      store.slot? object name = some (.shape kind properties) →
      catalog.get? kind = some shape →
      shape.properties.get? property = some definition →
      definition.varies (properties.get? property) = true →
      Varies store catalog (.property object name property)

theorem mem_schemaPaths_iff {catalog : Catalog}
    {select : String → PropertyDef → Bool} {object name kind : String}
    {path : Path} :
    path ∈ schemaPaths catalog select object name kind ↔
      ∃ shape definition property, catalog.get? kind = some shape ∧
        shape.properties.get? property = some definition ∧
        select property definition = true ∧
        path = .property object name property := by
  unfold schemaPaths
  cases known : catalog.get? kind with
  | none => simp
  | some shape =>
      simp only [List.mem_map, List.mem_filter, Prod.exists,
        Table.get?_eq_some_iff, Option.some.injEq]
      constructor
      · rintro ⟨property, definition, ⟨member, selected⟩, rfl⟩
        exact ⟨shape, definition, property, rfl, member, selected, rfl⟩
      · rintro ⟨_, definition, property, rfl, member, selected, rfl⟩
        exact ⟨property, definition, ⟨member, selected⟩, rfl⟩

/-- The varying paths in one slot. -/
def varyingIn (catalog : Catalog) : String × String × Slot N → List Path
  | (object, name, .scalar content) =>
      if content.isVary then [.field object name] else []
  | (object, name, .shape kind properties) =>
      schemaPaths catalog
        (fun property definition =>
          definition.varies (properties.get? property)) object name kind

theorem varyingPaths_eq (store : Store N) (catalog : Catalog) :
    store.varyingPaths catalog = store.slots.flatMap (varyingIn catalog) := by
  unfold varyingPaths
  congr 1
  funext entry
  obtain ⟨object, name, slot⟩ := entry
  cases slot <;> rfl

theorem mem_varyingIn_scalar {catalog : Catalog} {object name : String}
    {content : Content N} {path : Path} :
    path ∈ varyingIn catalog (object, name, .scalar content) ↔
      content = .symbolic .vary ∧ path = .field object name := by
  rw [← Content.isVary_iff]
  by_cases marked : content.isVary = true
  · simp [varyingIn, marked]
  · simp [varyingIn, marked]

theorem mem_varyingIn_shape {catalog : Catalog} {object name kind : String}
    {properties : Table String (Content N)} {path : Path} :
    path ∈ varyingIn catalog (object, name, .shape kind properties) ↔
      ∃ shape definition property, catalog.get? kind = some shape ∧
        shape.properties.get? property = some definition ∧
        definition.varies (properties.get? property) = true ∧
        path = .property object name property := by
  rw [varyingIn]
  exact mem_schemaPaths_iff

theorem mem_varyingPaths_iff {store : Store N} {catalog : Catalog}
    {path : Path} :
    path ∈ store.varyingPaths catalog ↔ store.Varies catalog path := by
  simp only [varyingPaths_eq, List.mem_flatMap, Prod.exists, mem_slots_iff]
  constructor
  · rintro ⟨object, name, slot, found, member⟩
    cases slot with
    | scalar content =>
        obtain ⟨rfl, rfl⟩ := mem_varyingIn_scalar.1 member
        exact .field found
    | shape kind properties =>
        obtain ⟨shape, definition, property, known, listed, varies, rfl⟩ :=
          mem_varyingIn_shape.1 member
        exact .property found known listed varies
  · intro varies
    cases varies with
    | field found =>
        exact ⟨_, _, _, found, mem_varyingIn_scalar.2 ⟨rfl, rfl⟩⟩
    | property found known listed varies =>
        exact ⟨_, _, _, found,
          mem_varyingIn_shape.2 ⟨_, _, _, known, listed, varies, rfl⟩⟩

theorem mem_shapePaths_iff {store : Store N} {path : Path} :
    path ∈ store.shapePaths ↔
      ∃ object name kind properties,
        store.slot? object name = some (.shape kind properties) ∧
        path = .field object name := by
  simp only [shapePaths, List.mem_filterMap, Prod.exists, mem_slots_iff]
  constructor
  · rintro ⟨object, name, slot, found, listed⟩
    cases slot with
    | scalar content => cases listed
    | shape kind properties =>
        cases listed
        exact ⟨object, name, kind, properties, found, rfl⟩
  · rintro ⟨object, name, kind, properties, found, rfl⟩
    exact ⟨object, name, _, found, rfl⟩

theorem schemaPaths_nodup (catalog : Catalog)
    (select : String → PropertyDef → Bool) (object name kind : String) :
    (schemaPaths catalog select object name kind).Nodup := by
  unfold schemaPaths
  cases catalog.get? kind with
  | none => exact List.Pairwise.nil
  | some shape =>
      have names := shape.properties.keys_nodup
      simp only [Table.keys, List.Nodup, List.pairwise_map] at names
      simp only [List.Nodup, List.pairwise_map]
      apply (names.filter _).imp
      intro left right different
      simpa using different

theorem varyingIn_nodup (catalog : Catalog)
    (entry : String × String × Slot N) :
    (varyingIn catalog entry).Nodup := by
  obtain ⟨object, name, slot⟩ := entry
  cases slot with
  | scalar content =>
      rw [varyingIn]
      split <;> simp
  | shape kind properties =>
      rw [varyingIn]
      exact schemaPaths_nodup catalog _ object name kind

theorem owner_of_mem_varyingIn {catalog : Catalog}
    {entry : String × String × Slot N} {path : Path}
    (member : path ∈ varyingIn catalog entry) :
    (path.object, path.fieldName) = (entry.1, entry.2.1) := by
  obtain ⟨object, name, slot⟩ := entry
  cases slot with
  | scalar content =>
      obtain ⟨-, rfl⟩ := mem_varyingIn_scalar.1 member
      rfl
  | shape kind properties =>
      obtain ⟨_, _, _, _, _, _, rfl⟩ := mem_varyingIn_shape.1 member
      rfl

/-- Paths that lie in the slot that they are listed for are listed once. -/
theorem nodup_flatMap_slots (store : Store N)
    {listed : String × String × Slot N → List Path}
    (each : ∀ entry, (listed entry).Nodup)
    (owner : ∀ {entry path}, path ∈ listed entry →
      (path.object, path.fieldName) = (entry.1, entry.2.1)) :
    (store.slots.flatMap listed).Nodup := by
  rw [List.Nodup, List.pairwise_flatMap]
  constructor
  · intro entry _
    exact each entry
  · apply store.slots_pairwise.imp
    intro left right different path member other otherMember same
    subst same
    exact different ((owner member).symm.trans (owner otherMember))

theorem varyingPaths_nodup (store : Store N) (catalog : Catalog) :
    (store.varyingPaths catalog).Nodup := by
  rw [varyingPaths_eq]
  exact store.nodup_flatMap_slots (varyingIn_nodup catalog)
    owner_of_mem_varyingIn

/-! ## Other paths -/

theorem mem_uninitializedPaths_iff {store : Store N} {catalog : Catalog}
    {path : Path} :
    path ∈ store.uninitializedPaths catalog ↔
      ∃ object name property kind properties shape definition,
        store.slot? object name = some (.shape kind properties) ∧
        catalog.get? kind = some shape ∧
        shape.properties.get? property = some definition ∧
        definition.isUninitialized property (properties.get? property) =
          true ∧
        path = .property object name property := by
  simp only [uninitializedPaths, List.mem_flatMap, Prod.exists, mem_slots_iff]
  constructor
  · rintro ⟨object, name, slot, found, member⟩
    cases slot with
    | scalar content => cases member
    | shape kind properties =>
        obtain ⟨shape, definition, property, known, listed, unset, rfl⟩ :=
          mem_schemaPaths_iff.1 member
        exact ⟨object, name, property, kind, properties, shape, definition,
          found, known, listed, unset, rfl⟩
  · rintro ⟨object, name, property, kind, properties, shape, definition, found,
      known, listed, unset, rfl⟩
    exact ⟨object, name, _, found, mem_schemaPaths_iff.2
      ⟨shape, definition, property, known, listed, unset, rfl⟩⟩

theorem property_mem_uninitializedPaths_iff {store : Store N}
    {catalog : Catalog} {object name property : String} :
    .property object name property ∈ store.uninitializedPaths catalog ↔
      ∃ kind properties shape definition,
        store.slot? object name = some (.shape kind properties) ∧
        catalog.get? kind = some shape ∧
        shape.properties.get? property = some definition ∧
        definition.isUninitialized property (properties.get? property) =
          true := by
  rw [mem_uninitializedPaths_iff]
  constructor
  · rintro ⟨_, _, _, kind, properties, shape, definition, found, known, listed,
      unset, same⟩
    cases same
    exact ⟨kind, properties, shape, definition, found, known, listed, unset⟩
  · rintro ⟨kind, properties, shape, definition, found, known, listed, unset⟩
    exact ⟨_, _, _, kind, properties, shape, definition, found, known, listed,
      unset, rfl⟩

/-- The listed properties in one slot. -/
def propertiesIn : String × String × Slot N → List Path
  | (_, _, .scalar _) => []
  | (object, name, .shape _ properties) =>
      properties.keys.map fun property => .property object name property

theorem propertyPaths_eq (store : Store N) :
    store.propertyPaths = store.slots.flatMap propertiesIn := by
  unfold propertyPaths
  congr 1
  funext entry
  obtain ⟨object, name, slot⟩ := entry
  cases slot <;> rfl

theorem mem_propertiesIn_shape {object name kind : String}
    {properties : Table String (Content N)} {path : Path} :
    path ∈ propertiesIn (object, name, .shape kind properties) ↔
      ∃ property ∈ properties.keys, path = .property object name property := by
  simp only [propertiesIn, List.mem_map, eq_comm]

theorem mem_propertyPaths_iff {store : Store N} {path : Path} :
    path ∈ store.propertyPaths ↔ ∃ object name kind properties,
      store.slot? object name = some (.shape kind properties) ∧
      ∃ property ∈ properties.keys, path = .property object name property := by
  simp only [propertyPaths_eq, List.mem_flatMap, Prod.exists, mem_slots_iff]
  constructor
  · rintro ⟨object, name, slot, found, member⟩
    cases slot with
    | scalar content => cases member
    | shape kind properties =>
        exact ⟨object, name, kind, properties, found,
          mem_propertiesIn_shape.1 member⟩
  · rintro ⟨object, name, kind, properties, found, listed⟩
    exact ⟨object, name, _, found, mem_propertiesIn_shape.2 listed⟩

theorem propertyPaths_nodup (store : Store N) : store.propertyPaths.Nodup := by
  rw [propertyPaths_eq]
  apply store.nodup_flatMap_slots
  · rintro ⟨object, name, slot⟩
    cases slot with
    | scalar content => exact List.nodup_nil
    | shape kind properties =>
        have names := properties.keys_nodup
        simp only [propertiesIn, List.Nodup, List.pairwise_map] at names ⊢
        apply names.imp
        intro left right different
        simpa using different
  · rintro ⟨object, name, slot⟩ path member
    cases slot with
    | scalar content => cases member
    | shape kind properties =>
        obtain ⟨property, -, rfl⟩ := mem_propertiesIn_shape.1 member
        rfl

end Store

end DiagramEnergy
