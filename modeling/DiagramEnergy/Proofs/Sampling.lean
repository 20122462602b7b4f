import DiagramEnergy.Proofs.Analysis
import DiagramEnergy.Proofs.Store.Writing
import DiagramEnergy.Sampling

/-!
# What sampling leaves in the store

Sampling fills every varying field with a float, and every varying property
that it draws with a value of the type of its sampler, which a valid catalog
makes a float.  The one name that it never draws is the reserved one.
-/

namespace DiagramEnergy

variable {α β N : Type}

/-! ## Draws -/

theorem Random.exists_of_mem_mapM {draw : β → Random α} {items : List β}
    {generator : Generator} {result : α}
    (drawn : result ∈ ((items.mapM draw).run generator).1) :
    ∃ item ∈ items, ∃ reached, result = ((draw item).run reached).1 := by
  induction items generalizing generator with
  | nil =>
      rw [List.mapM_nil] at drawn
      cases drawn
  | cons item items induction =>
      rw [List.mapM_cons] at drawn
      rcases List.mem_cons.1 drawn with rfl | later
      · exact ⟨item, by simp, generator, rfl⟩
      · obtain ⟨other, member, reached, same⟩ := induction later
        exact ⟨other, by simp [member], reached, same⟩

theorem Random.mem_mapM_of_mem (draw : β → Random α) {items : List β}
    {item : β} (member : item ∈ items) (generator : Generator) :
    ∃ reached, ((draw item).run reached).1 ∈
      ((items.mapM draw).run generator).1 := by
  induction items generalizing generator with
  | nil => cases member
  | cons first items induction =>
      rw [List.mapM_cons]
      rcases List.mem_cons.1 member with rfl | later
      · exact ⟨generator, List.mem_cons_self⟩
      · obtain ⟨reached, drawn⟩ :=
          induction later ((draw first).run generator).2
        exact ⟨reached, List.mem_cons_of_mem _ drawn⟩

/-- A property of the result of a draw, whatever the generator is. -/
def Random.Always (property : α → Prop) (draw : Random α) : Prop :=
  ∀ generator, property (draw.run generator).1

namespace Random.Always

variable {property : α → Prop}

theorem pure {result : α} (holds : property result) :
    Always property (Pure.pure result) :=
  fun _ => holds

theorem map {change : β → α} (holds : ∀ result, property (change result))
    (draw : Random β) : Always property (change <$> draw) :=
  fun generator => holds (draw.run generator).1

theorem bind {next : β → Random α} (draw : Random β)
    (later : ∀ result, Always property (next result)) :
    Always property (draw >>= next) :=
  fun generator => later (draw.run generator).1 (draw.run generator).2

theorem bind_of {known : β → Prop} {draw : Random β} {next : β → Random α}
    (first : Always known draw)
    (later : ∀ result, known result → Always property (next result)) :
    Always property (draw >>= next) :=
  fun generator => later (draw.run generator).1 (first generator)
    (draw.run generator).2

end Random.Always

theorem Sampler.always_type_sample (sampler : Sampler) :
    sampler.sample.Always fun value => value.type = sampler.type := by
  cases sampler with
  | uniform low high =>
      rw [sample]
      apply Random.Always.map
      intro result
      rfl
  | fixed value => exact Random.Always.pure rfl
  | color =>
      rw [sample]
      apply Random.Always.bind
      intro red
      apply Random.Always.bind
      intro green
      apply Random.Always.bind
      intro blue
      exact Random.Always.pure rfl
  | choice options =>
      cases options with
      | nil => exact Random.Always.pure rfl
      | cons first rest =>
          rw [sample]
          apply Random.Always.bind
          intro index
          exact Random.Always.pure rfl
  | bool =>
      rw [sample]
      apply Random.Always.map
      intro result
      rfl

/-! ## Valid catalogs -/

theorem Except.ok_of_forM {check : α → Except Error Unit} {items : List α}
    (passed : items.forM check = .ok ()) {item : α} (member : item ∈ items) :
    check item = .ok () := by
  induction items with
  | nil => cases member
  | cons first items induction =>
      rw [show (first :: items).forM check =
        (check first >>= fun _ => items.forM check) from rfl] at passed
      cases checked : check first with
      | error error =>
          rw [checked] at passed
          cases passed
      | ok result =>
          rw [checked] at passed
          rcases List.mem_cons.1 member with rfl | later
          · exact checked
          · exact induction passed later

theorem Catalog.type_sampler_of_validate {catalog : Catalog}
    (valid : catalog.validate = .ok ()) {kind name : String} {shape : ShapeDef}
    {definition : PropertyDef} (known : catalog.get? kind = some shape)
    (listed : shape.properties.get? name = some definition) :
    definition.sampler.type = definition.type := by
  have shapeValid := Except.ok_of_forM valid (Table.get?_eq_some_iff.1 known)
  have passed : validateProperty kind name definition = .ok () :=
    Except.ok_of_forM shapeValid (Table.get?_eq_some_iff.1 listed)
  unfold validateProperty at passed
  split at passed
  · cases passed
  · rename_i same
    exact Decidable.not_not.1 same

/-! ## Writes -/

namespace Sampling

/-- A store in which some values have been written. -/
structure WrittenAll (store : Store Float) (entries : List (Path × Value Float))
    (written : Store Float) : Prop where
  contents : ∀ path,
    (∃ value, (path, value) ∈ entries ∧
      written.content? path = some (.concrete value)) ∨
    ((∀ entry ∈ entries, entry.1 ≠ path) ∧
      written.content? path = store.content? path)
  slots : ∀ object name,
    (∀ entry ∈ entries,
      ¬ (object = entry.1.object ∧ name = entry.1.fieldName)) →
    written.slot? object name = store.slot? object name

theorem writtenAll_write {store : Store Float}
    {entries : List (Path × Value Float)}
    (accepts : ∀ entry ∈ entries, store.Accepts entry.1) :
    WrittenAll store entries (write store entries).1 := by
  induction entries generalizing store with
  | nil =>
      constructor
      · intro path
        exact .inr ⟨by simp, rfl⟩
      · intro object name _
        rfl
  | cons entry entries induction =>
      obtain ⟨path, value⟩ := entry
      obtain ⟨between, wrote, first⟩ :=
        Store.written_of_accepts (accepts (path, value) (by simp)) value
      have rest := induction fun other member =>
        first.accepts other.1 (accepts other (by simp [member]))
      simp only [write, wrote]
      constructor
      · intro other
        rcases rest.contents other with
          ⟨found, member, content⟩ | ⟨untouched, content⟩
        · exact .inl ⟨found, by simp [member], content⟩
        · rw [first.contents other] at content
          by_cases same : other = path
          · rw [if_pos same] at content
            exact .inl ⟨value, by simp [same], content⟩
          · rw [if_neg same] at content
            refine .inr ⟨?_, content⟩
            intro entry member
            rcases List.mem_cons.1 member with rfl | later
            · exact Ne.symm same
            · exact untouched entry later
      · intro object name elsewhere
        rw [rest.slots object name fun other member =>
          elsewhere other (by simp [member])]
        exact first.slots object name (elsewhere (path, value) (by simp))

/-- What no single write changes stays as it is. -/
theorem write_keeps {observed : Store Float → β}
    (kept : ∀ {before after path value},
      before.setValue? path value = some after → observed after = observed before)
    (store : Store Float) (entries : List (Path × Value Float)) :
    observed (write store entries).1 = observed store := by
  induction entries generalizing store with
  | nil => rfl
  | cons entry entries induction =>
      obtain ⟨path, value⟩ := entry
      cases wrote : store.setValue? path value with
      | none =>
          simp only [write, wrote]
          exact induction store
      | some written =>
          simp only [write, wrote]
          exact (induction written).trans (kept wrote)

theorem kind?_write (store : Store Float)
    (entries : List (Path × Value Float)) (object name : String) :
    (write store entries).1.kind? object name = store.kind? object name :=
  write_keeps (fun wrote => Store.kind?_setValue? wrote object name) store entries

theorem objectNames_write (store : Store Float)
    (entries : List (Path × Value Float)) :
    (write store entries).1.objectNames = store.objectNames :=
  write_keeps Store.objectNames_setValue? store entries

theorem always_drawField (canvas : Canvas) (path : Path) :
    (drawField canvas path).Always fun drawn =>
      drawn.1 = path ∧ ∃ number, drawn.2 = .float number := by
  rw [drawField]
  apply Random.Always.bind
  intro number
  exact Random.Always.pure ⟨rfl, number, rfl⟩

theorem always_drawProperty (target : Path × Sampler) :
    (drawProperty target).Always fun drawn =>
      drawn.1 = target.1 ∧ drawn.2.type = target.2.type := by
  rw [drawProperty]
  refine Random.Always.bind_of target.2.always_type_sample ?_
  intro value typed
  exact Random.Always.pure ⟨rfl, typed⟩

theorem store_fields (store : Store Float) (paths : List Path)
    (canvas : Canvas) (generator : Generator) :
    ((fields store paths canvas).run generator).1.store =
      (write store (((paths.filter Path.isField).mapM
        (drawField canvas)).run generator).1).1 := by
  rfl

theorem store_shapes (store : Store Float) (catalog : Catalog)
    (generator : Generator) :
    ((shapes store catalog).run generator).1.store =
      (write store (((targets store catalog).mapM
        drawProperty).run generator).1).1 := by
  rfl

/-! ## Fields -/

variable {store : Store Float} {catalog : Catalog}

theorem varies_of_mem_fields {path : Path}
    (member : path ∈ (store.varyingPaths catalog).filter Path.isField) :
    ∃ object name, path = .field object name ∧
      store.slot? object name = some (.scalar (.symbolic .vary)) := by
  obtain ⟨listed, isField⟩ := List.mem_filter.1 member
  cases Store.mem_varyingPaths_iff.1 listed with
  | field found => exact ⟨_, _, rfl, found⟩
  | property => cases isField

/-- Sampling the fields writes floats over their markers. -/
theorem writtenAll_fields (store : Store Float) (catalog : Catalog)
    (canvas : Canvas) (generator : Generator) :
    ∃ drawn : List (Path × Value Float),
      (∀ entry ∈ drawn, ∃ object name, entry.1 = .field object name ∧
        store.slot? object name = some (.scalar (.symbolic .vary)) ∧
        ∃ number, entry.2 = .float number) ∧
      (∀ object name,
        store.slot? object name = some (.scalar (.symbolic .vary)) →
        ∃ entry ∈ drawn, entry.1 = .field object name) ∧
      WrittenAll store drawn ((fields store (store.varyingPaths catalog)
        canvas).run generator).1.store := by
  have drawnFrom : ∀ entry ∈ ((((store.varyingPaths catalog).filter
      Path.isField).mapM (drawField canvas)).run generator).1,
      ∃ object name, entry.1 = .field object name ∧
        store.slot? object name = some (.scalar (.symbolic .vary)) ∧
        ∃ number, entry.2 = .float number := by
    intro entry drawn
    obtain ⟨path, member, reached, same⟩ := Random.exists_of_mem_mapM drawn
    obtain ⟨object, name, rfl, found⟩ := varies_of_mem_fields member
    obtain ⟨first, number, second⟩ :=
      always_drawField canvas (.field object name) reached
    rw [← same] at first second
    exact ⟨object, name, first, found, number, second⟩
  refine ⟨_, drawnFrom, ?_, ?_⟩
  · intro object name found
    have member : Path.field object name ∈
        (store.varyingPaths catalog).filter Path.isField :=
      List.mem_filter.2 ⟨Store.mem_varyingPaths_iff.2 (.field found), rfl⟩
    obtain ⟨reached, drawn⟩ :=
      Random.mem_mapM_of_mem (drawField canvas) member generator
    exact ⟨_, drawn, (always_drawField canvas _ reached).1⟩
  · rw [store_fields]
    apply writtenAll_write
    intro entry drawn
    obtain ⟨object, name, same, found, -⟩ := drawnFrom entry drawn
    rw [same]
    exact ⟨_, found, rfl⟩

theorem slot?_fields (catalog : Catalog) (canvas : Canvas)
    (generator : Generator) {object name : String}
    (held : store.slot? object name ≠ some (.scalar (.symbolic .vary))) :
    ((fields store (store.varyingPaths catalog) canvas).run
      generator).1.store.slot? object name = store.slot? object name := by
  obtain ⟨drawn, drawnFrom, -, written⟩ := writtenAll_fields store catalog
    canvas generator
  apply written.slots
  intro entry member ⟨sameObject, sameName⟩
  obtain ⟨other, field, same, found, -⟩ := drawnFrom entry member
  rw [same] at sameObject sameName
  subst sameObject
  subst sameName
  exact held found

theorem content?_fields {canvas : Canvas} {generator : Generator}
    {object name : String}
    (found : store.slot? object name = some (.scalar (.symbolic .vary))) :
    ∃ number, ((fields store (store.varyingPaths catalog) canvas).run
      generator).1.store.content? (.field object name) =
        some (.concrete (.float number)) := by
  obtain ⟨drawn, drawnFrom, covered, written⟩ :=
    writtenAll_fields store catalog canvas generator
  obtain ⟨entry, member, same⟩ := covered object name found
  rcases written.contents (.field object name) with
    ⟨value, drawn, content⟩ | ⟨untouched, -⟩
  · obtain ⟨_, _, _, _, number, typed⟩ := drawnFrom _ drawn
    simp only at typed
    subst typed
    exact ⟨number, content⟩
  · exact absurd same (untouched entry member)

/-- Sampling leaves no marker in a field. -/
theorem content?_fields_ne_vary (canvas : Canvas) (generator : Generator)
    (object name : String) :
    ((fields store (store.varyingPaths catalog) canvas).run
      generator).1.store.content? (.field object name) ≠
        some (.symbolic .vary) := by
  intro marked
  obtain ⟨drawn, -, covered, written⟩ :=
    writtenAll_fields store catalog canvas generator
  rcases written.contents (.field object name) with
    ⟨value, -, content⟩ | ⟨untouched, content⟩
  · rw [marked] at content
    cases content
  · rw [marked, Store.content?_eq_slot?, eq_comm,
      Option.bind_eq_some_iff] at content
    obtain ⟨slot, found, held⟩ := content
    cases slot with
    | shape kind properties => cases held
    | scalar present =>
        cases held
        obtain ⟨entry, member, same⟩ := covered object name found
        exact untouched entry member same

/-! ## Properties -/

theorem mem_targets_iff {target : Path × Sampler} :
    target ∈ targets store catalog ↔
      ∃ object name property kind properties shape definition,
        store.slot? object name = some (.shape kind properties) ∧
        catalog.get? kind = some shape ∧
        shape.properties.get? property = some definition ∧
        wants definition property (properties.get? property) = true ∧
        target = (.property object name property, definition.sampler) := by
  simp only [targets, List.mem_flatMap, Prod.exists, Store.mem_slots_iff]
  constructor
  · rintro ⟨object, name, slot, found, member⟩
    cases slot with
    | scalar content => cases member
    | shape kind properties =>
        simp only at member
        cases known : catalog.get? kind with
        | none =>
            rw [known] at member
            cases member
        | some shape =>
            rw [known] at member
            obtain ⟨⟨property, definition⟩, kept, rfl⟩ := List.mem_map.1 member
            obtain ⟨listed, wanted⟩ := List.mem_filter.1 kept
            exact ⟨object, name, property, kind, properties, shape, definition,
              found, known, Table.get?_eq_some_iff.2 listed, wanted, rfl⟩
  · rintro ⟨object, name, property, kind, properties, shape, definition, found,
      known, listed, wanted, rfl⟩
    refine ⟨object, name, _, found, ?_⟩
    simp only [known]
    exact List.mem_map.2 ⟨(property, definition),
      List.mem_filter.2 ⟨Table.get?_eq_some_iff.1 listed, wanted⟩, rfl⟩

theorem wants_iff {definition : PropertyDef} {name : String}
    {content : Option (Content Float)} :
    wants definition name content = true ↔ name ≠ reservedProperty ∧
      (content = none ∧ definition.pending = false ∨
        content = some (.symbolic .vary)) := by
  cases content <;> simp [wants, Content.isVary_iff]

/-- The properties that sampling the shapes of a store draws. -/
inductive Draws (store : Store Float) (catalog : Catalog) : Path → Prop where
  | property {object name property kind : String} {schema : ShapeDef}
      {definition : PropertyDef} :
      store.kind? object name = some kind →
      catalog.get? kind = some schema →
      schema.properties.get? property = some definition →
      wants definition property
        (store.content? (.property object name property)) = true →
      Draws store catalog (.property object name property)

theorem draws_iff {path : Path} :
    Draws store catalog path ↔
      ∃ target ∈ targets store catalog, target.1 = path := by
  constructor
  · intro draws
    cases draws with
    | property shape known listed wanted =>
        obtain ⟨properties, found⟩ := Store.kind?_eq_some_iff.1 shape
        rw [Store.content?_of_shape found] at wanted
        exact ⟨_, mem_targets_iff.2 ⟨_, _, _, _, properties, _, _, found, known,
          listed, wanted, rfl⟩, rfl⟩
  · rintro ⟨target, member, rfl⟩
    obtain ⟨object, name, property, kind, properties, schema, definition, found,
      known, listed, wanted, rfl⟩ := mem_targets_iff.1 member
    rw [← Store.content?_of_shape found] at wanted
    exact .property (Store.kind?_eq_some_iff.2 ⟨properties, found⟩) known listed
      wanted

theorem draws_iff_of_shape {object name kind : String}
    {properties : Table String (Content Float)} {shape : ShapeDef}
    (found : store.slot? object name = some (.shape kind properties))
    (known : catalog.get? kind = some shape) (property : String) :
    Draws store catalog (.property object name property) ↔
      ∃ definition, shape.properties.get? property = some definition ∧
        wants definition property (properties.get? property) = true := by
  rw [← Store.content?_of_shape found]
  constructor
  · intro draws
    cases draws with
    | property shape' known' listed wanted =>
        obtain ⟨properties', found'⟩ := Store.kind?_eq_some_iff.1 shape'
        rw [found] at found'
        cases found'
        rw [known] at known'
        cases known'
        exact ⟨_, listed, wanted⟩
  · rintro ⟨definition, listed, wanted⟩
    exact .property (Store.kind?_eq_some_iff.2 ⟨properties, found⟩) known listed
      wanted

namespace Draws

variable {other : Store Float} {path : Path}

/-- Whether a property is drawn depends on the kind of its shape and on what the
shape has for it. -/
theorem congr
    (kinds : ∀ object name, other.kind? object name = store.kind? object name)
    (same : other.content? path = store.content? path)
    (draws : Draws other catalog path) : Draws store catalog path := by
  cases draws with
  | property shape known listed wanted =>
      rw [kinds] at shape
      rw [same] at wanted
      exact .property shape known listed wanted

theorem free (draws : Draws store catalog path) :
    store.content? path = none ∨
      store.content? path = some (.symbolic .vary) := by
  cases draws with
  | property shape known listed wanted =>
      obtain ⟨-, ⟨absent, -⟩ | marked⟩ := wants_iff.1 wanted
      · exact .inl absent
      · exact .inr marked

theorem not_reserved {object name : String} :
    ¬ Draws store catalog (.property object name reservedProperty) := by
  intro draws
  cases draws with
  | property shape known listed wanted => exact (wants_iff.1 wanted).1 rfl

end Draws

/-- Sampling the shapes writes a value of the right type for each target. -/
theorem writtenAll_shapes (store : Store Float) (catalog : Catalog)
    (generator : Generator) :
    ∃ drawn : List (Path × Value Float),
      (∀ entry ∈ drawn, ∃ target ∈ targets store catalog,
        entry.1 = target.1 ∧ entry.2.type = target.2.type) ∧
      (∀ target ∈ targets store catalog, ∃ entry ∈ drawn, entry.1 = target.1) ∧
      WrittenAll store drawn
        ((shapes store catalog).run generator).1.store := by
  have drawnFrom : ∀ entry ∈ (((targets store catalog).mapM
      drawProperty).run generator).1, ∃ target ∈ targets store catalog,
        entry.1 = target.1 ∧ entry.2.type = target.2.type := by
    intro entry drawn
    obtain ⟨target, member, reached, same⟩ := Random.exists_of_mem_mapM drawn
    have typed := always_drawProperty target reached
    rw [← same] at typed
    exact ⟨target, member, typed⟩
  refine ⟨_, drawnFrom, ?_, ?_⟩
  · intro target member
    obtain ⟨reached, drawn⟩ :=
      Random.mem_mapM_of_mem drawProperty member generator
    exact ⟨_, drawn, (always_drawProperty target reached).1⟩
  · rw [store_shapes]
    apply writtenAll_write
    intro entry drawn
    obtain ⟨target, member, same, -⟩ := drawnFrom entry drawn
    obtain ⟨object, name, property, kind, properties, shape, definition, found,
      -, -, -, rfl⟩ := mem_targets_iff.1 member
    rw [same]
    exact ⟨_, found, rfl⟩

theorem content?_shapes_of_target (valid : catalog.validate = .ok ())
    {generator : Generator} {object name property kind : String}
    {properties : Table String (Content Float)} {shape : ShapeDef}
    {definition : PropertyDef}
    (found : store.slot? object name = some (.shape kind properties))
    (known : catalog.get? kind = some shape)
    (listed : shape.properties.get? property = some definition)
    (wanted : wants definition property (properties.get? property) = true) :
    ∃ value : Value Float, value.type = definition.type ∧
      ((shapes store catalog).run generator).1.store.content?
        (.property object name property) = some (.concrete value) := by
  obtain ⟨drawn, drawnFrom, covered, written⟩ :=
    writtenAll_shapes store catalog generator
  have targeted := mem_targets_iff.2 ⟨object, name, property, kind, properties,
    shape, definition, found, known, listed, wanted, rfl⟩
  obtain ⟨entry, member, same⟩ := covered _ targeted
  rcases written.contents (.property object name property) with
    ⟨value, drawn, content⟩ | ⟨untouched, -⟩
  · obtain ⟨target, aimed, samePath, typed⟩ := drawnFrom _ drawn
    obtain ⟨_, _, _, _, _, _, _, found', known', listed', -, rfl⟩ :=
      mem_targets_iff.1 aimed
    cases samePath
    obtain ⟨-, rfl⟩ :=
      Store.same_definition found known listed found' known' listed'
    refine ⟨value, ?_, content⟩
    exact typed.trans (catalog.type_sampler_of_validate valid known listed)
  · exact absurd same (untouched entry member)

theorem content?_shapes_of_not_draws {generator : Generator} {path : Path}
    (spared : ¬ Draws store catalog path) :
    ((shapes store catalog).run generator).1.store.content? path =
      store.content? path := by
  obtain ⟨drawn, drawnFrom, -, written⟩ :=
    writtenAll_shapes store catalog generator
  rcases written.contents path with ⟨value, drawn, -⟩ | ⟨-, content⟩
  · obtain ⟨target, member, same, -⟩ := drawnFrom _ drawn
    exact absurd (draws_iff.2 ⟨target, member, same.symm⟩) spared
  · exact content

theorem content?_shapes_field {generator : Generator} (object name : String) :
    ((shapes store catalog).run generator).1.store.content?
      (.field object name) = store.content? (.field object name) :=
  content?_shapes_of_not_draws nofun

/-- Sampling the shapes removes nothing. -/
theorem isSome_content?_shapes {generator : Generator} {path : Path}
    (held : (store.content? path).isSome) :
    (((shapes store catalog).run generator).1.store.content?
      path).isSome := by
  obtain ⟨drawn, -, -, written⟩ := writtenAll_shapes store catalog generator
  rcases written.contents path with ⟨value, -, content⟩ | ⟨-, content⟩
  · rw [content]
    rfl
  · rw [content]
    exact held

end Sampling

end DiagramEnergy
