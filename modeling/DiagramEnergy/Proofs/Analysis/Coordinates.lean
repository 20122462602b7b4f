import DiagramEnergy.Proofs.Overrides
import DiagramEnergy.Proofs.Store.Slots

/-!
# The coordinates of a store

The varying paths are the coordinates of an optimizer.  They are listed by
object, then by field, then by property, and each of them once; a vector of
values can therefore be spread over them without losing an entry, although
overrides are kept in another order, with all fields before all properties.
-/

namespace DiagramEnergy

variable {N : Type}

/-! ## The order of a store -/

namespace Path

/-- The order by object, then by field, then by property. -/
def Precedes (earlier later : Path) : Prop :=
  compare earlier.names later.names = .lt

theorem names_eq (path : Path) :
    path.names =
      path.object :: path.fieldName :: path.propertyName?.toList := by
  cases path <;> rfl

theorem precedes_of_owner {earlier later : Path}
    (precedes : Store.Precedes (earlier.object, earlier.fieldName)
      (later.object, later.fieldName)) : earlier.Precedes later := by
  unfold Precedes
  rw [names_eq, names_eq, List.compare_cons_cons, List.compare_cons_cons]
  rcases precedes with smaller | ⟨same, smaller⟩
  · rw [smaller]
    rfl
  · dsimp only at same smaller
    rw [same, Std.ReflOrd.compare_self, smaller]
    rfl

theorem property_precedes {object name earlier later : String}
    (smaller : compare earlier later = .lt) :
    (Path.property object name earlier).Precedes
      (.property object name later) := by
  simp only [Precedes, names, List.compare_cons_cons,
    Std.ReflOrd.compare_self, smaller]
  rfl

end Path

namespace Store

/-- Lists over the slots are increasing if the list of each slot is, and if what
it lists lies in that slot. -/
theorem increasing_flatMap_slots {α : Type} (store : Store N)
    {listed : String × String × Slot N → List α} (aim : α → Path)
    (each : ∀ entry, (listed entry).Pairwise fun earlier later =>
      (aim earlier).Precedes (aim later))
    (owner : ∀ {entry item}, item ∈ listed entry →
      ((aim item).object, (aim item).fieldName) = (entry.1, entry.2.1)) :
    (store.slots.flatMap listed).Pairwise fun earlier later =>
      (aim earlier).Precedes (aim later) := by
  have ordered := store.slotNames_increasing
  rw [slotNames, List.pairwise_map] at ordered
  rw [List.pairwise_flatMap]
  constructor
  · intro entry _
    exact each entry
  · apply ordered.imp
    intro left right precedes item member other otherMember
    apply Path.precedes_of_owner
    rw [owner member, owner otherMember]
    exact precedes

theorem schemaPaths_increasing (catalog : Catalog)
    (select : String → PropertyDef → Bool) (object name kind : String) :
    (schemaPaths catalog select object name kind).Pairwise Path.Precedes := by
  unfold schemaPaths
  cases catalog.get? kind with
  | none => exact List.Pairwise.nil
  | some shape =>
      rw [List.pairwise_map]
      apply (shape.properties.increasing.filter _).imp
      intro left right smaller
      exact Path.property_precedes smaller

theorem varyingIn_increasing (catalog : Catalog)
    (entry : String × String × Slot N) :
    (varyingIn catalog entry).Pairwise Path.Precedes := by
  obtain ⟨object, name, slot⟩ := entry
  cases slot with
  | scalar content =>
      rw [varyingIn]
      split <;> simp
  | shape kind properties =>
      rw [varyingIn]
      exact schemaPaths_increasing catalog _ object name kind

theorem varyingPaths_increasing (store : Store N) (catalog : Catalog) :
    (store.varyingPaths catalog).Pairwise Path.Precedes := by
  rw [varyingPaths_eq]
  exact store.increasing_flatMap_slots id (varyingIn_increasing catalog)
    owner_of_mem_varyingIn

/-! ## What is listed -/

theorem field_mem_varyingPaths_iff {store : Store N} {catalog : Catalog}
    {object name : String} :
    .field object name ∈ store.varyingPaths catalog ↔
      store.slot? object name = some (.scalar (.symbolic .vary)) := by
  rw [mem_varyingPaths_iff]
  constructor
  · intro varies
    cases varies with
    | field found => exact found
  · exact .field

theorem property_mem_varyingPaths_iff {store : Store N} {catalog : Catalog}
    {object name property : String} :
    .property object name property ∈ store.varyingPaths catalog ↔
      ∃ kind properties schema definition,
        store.slot? object name = some (.shape kind properties) ∧
        catalog.get? kind = some schema ∧
        schema.properties.get? property = some definition ∧
        definition.isNumeric = true ∧ definition.pending = false ∧
        (properties.get? property = none ∨
          properties.get? property = some (.symbolic .vary)) := by
  have varies_iff (definition : PropertyDef) (content : Option (Content N)) :
      definition.varies content = true ↔
        definition.isNumeric = true ∧ definition.pending = false ∧
          (content = none ∨ content = some (.symbolic .vary)) := by
    cases content <;>
      simp [PropertyDef.varies, Content.isVary_iff, and_assoc]
  rw [mem_varyingPaths_iff]
  constructor
  · intro varies
    cases varies with
    | property found known listed varies =>
        exact ⟨_, _, _, _, found, known, listed, (varies_iff _ _).1 varies⟩
  · rintro ⟨kind, properties, schema, definition, found, known, listed, free⟩
    exact .property found known listed ((varies_iff _ _).2 free)

/-- No path is both varying and left to sampling alone. -/
theorem not_mem_uninitializedPaths_of_varies {store : Store N}
    {catalog : Catalog} {path : Path}
    (varying : path ∈ store.varyingPaths catalog) :
    path ∉ store.uninitializedPaths catalog := by
  intro unset
  obtain ⟨object, name, property, kind, properties, schema, definition, found,
    known, listed, isUnset, rfl⟩ := mem_uninitializedPaths_iff.1 unset
  obtain ⟨_, _, _, _, found', known', listed', numeric, -⟩ :=
    property_mem_varyingPaths_iff.1 varying
  obtain ⟨rfl, rfl⟩ :=
    same_definition found known listed found' known' listed'
  simp [PropertyDef.isUninitialized, numeric] at isUnset

end Store

/-! ## Values for the coordinates -/

/-- Overrides of distinct paths have an entry for each of them, which is the
value at its position. -/
theorem Overrides.exists_ofParts_of_nodup {paths : List Path}
    (distinct : paths.Nodup) {values : List N}
    (sameLength : values.length = paths.length) :
    ∃ overrides, ofParts paths values = .ok overrides ∧
      overrides.size = paths.length ∧
      ∀ index : Nat, paths[index]?.bind overrides.get? = values[index]? := by
  have paired : ofParts paths values =
      .ok ⟨.ofList (paths.zip values)⟩ :=
    ofParts_eq_ok_iff.2 ⟨sameLength.symm, rfl⟩
  refine ⟨_, paired, ?_, ?_⟩
  · have keys : ((paths.zip values).map Prod.fst).Nodup := by
      rw [List.map_fst_zip (Nat.le_of_eq sameLength.symm)]
      exact distinct
    calc (Table.ofList (paths.zip values)).size
        = (paths.zip values).length := Table.size_ofList keys
      _ = paths.length := by rw [List.length_zip, sameLength, Nat.min_self]
  · intro index
    rcases Nat.lt_or_ge index paths.length with within | beyond
    · have there : index < values.length := by omega
      rw [List.getElem?_eq_getElem within, List.getElem?_eq_getElem there,
        Option.bind_some]
      apply get?_of_mem_zip paired distinct
      exact List.mem_of_getElem? (List.getElem?_zip_eq_some.2
        ⟨List.getElem?_eq_getElem within, List.getElem?_eq_getElem there⟩)
    · rw [List.getElem?_eq_none beyond, List.getElem?_eq_none (by omega)]
      rfl

/-- The varying paths are exactly the marked fields and the free numeric
properties, in increasing order, apart from what is left to sampling alone; and
a vector with a value for each of them gives each of them its own value. -/
theorem Store.varyingPaths_address_coordinates (store : Store N)
    (catalog : Catalog) :
    (∀ object name, .field object name ∈ store.varyingPaths catalog ↔
      store.slot? object name = some (.scalar (.symbolic .vary))) ∧
    (∀ object name property,
      .property object name property ∈ store.varyingPaths catalog ↔
        ∃ kind properties schema definition,
          store.slot? object name = some (.shape kind properties) ∧
          catalog.get? kind = some schema ∧
          schema.properties.get? property = some definition ∧
          definition.isNumeric = true ∧ definition.pending = false ∧
          (properties.get? property = none ∨
            properties.get? property = some (.symbolic .vary))) ∧
    (store.varyingPaths catalog).Pairwise Path.Precedes ∧
    (store.varyingPaths catalog).Nodup ∧
    (∀ path ∈ store.varyingPaths catalog,
      path ∉ store.uninitializedPaths catalog) ∧
    ∀ {M : Type} (values : List M),
      values.length = (store.varyingPaths catalog).length →
      ∃ overrides,
        Overrides.ofParts (store.varyingPaths catalog) values = .ok overrides ∧
        overrides.size = (store.varyingPaths catalog).length ∧
        ∀ index : Nat, (store.varyingPaths catalog)[index]?.bind
          overrides.get? = values[index]? :=
  ⟨fun _ _ => field_mem_varyingPaths_iff,
    fun _ _ _ => property_mem_varyingPaths_iff,
    store.varyingPaths_increasing catalog, store.varyingPaths_nodup catalog,
    fun _ => not_mem_uninitializedPaths_of_varies,
    fun _ => Overrides.exists_ofParts_of_nodup
      (store.varyingPaths_nodup catalog)⟩

/-! ## A dot beside a free field -/

/-- A catalog with one kind, which has a radius to sample, and a label and a
width for layout to fill in. -/
def dotCatalog : Catalog :=
  ⟨Table.empty.insert "Dot" {
    properties := ((Table.empty.insert "label"
      { type := .str, pending := true, sampler := .fixed (.str "dot") }).insert "r"
      { type := .float, sampler := .fixed (.float 1) }).insert "w"
      { type := .float, pending := true, sampler := .fixed (.float 2) } }⟩

/-- A free field, and a dot that takes its position from there and whose label
is marked as free although it is left to layout. -/
def dotStore : Store Float :=
  ((Store.empty.declare "A").bind "A" "free" (.scalar (.symbolic .vary))).bind
    "A" "dot" (.shape "Dot" ((Table.empty.insert "label" (.symbolic .vary)).insert
      "x" (.symbolic (.reference (.field "A" "free")))))

/-- The dot stands before the free field, so its radius is the first coordinate,
although overrides have the field first. -/
theorem Store.varyingPaths_address_dot :
    dotStore.varyingPaths dotCatalog =
      [.property "A" "dot" "r", .field "A" "free"] ∧
    ∃ overrides : Overrides Nat,
      Overrides.ofParts (dotStore.varyingPaths dotCatalog) [1, 2] =
        .ok overrides ∧
      overrides.size = 2 ∧
      overrides.get? (.property "A" "dot" "r") = some 1 ∧
      overrides.get? (.field "A" "free") = some 2 := by
  have listed : dotStore.varyingPaths dotCatalog =
      [.property "A" "dot" "r", .field "A" "free"] := by
    rfl
  obtain ⟨-, -, -, -, -, spread⟩ :=
    dotStore.varyingPaths_address_coordinates dotCatalog
  obtain ⟨overrides, paired, size, values⟩ := spread ([1, 2] : List Nat) rfl
  exact ⟨listed, overrides, paired, size, values 0, values 1⟩

end DiagramEnergy
