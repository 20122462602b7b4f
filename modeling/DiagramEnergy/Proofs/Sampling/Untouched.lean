import DiagramEnergy.Proofs.Analysis.Coordinates
import DiagramEnergy.Proofs.Problem.Calls

/-!
# What sampling leaves alone

Sampling writes to free fields, to properties of a known kind that are marked as
free, and to those that are absent unless layout fills them in.  Main
statements: nothing else in a store changes, so its calls and shapes are listed
as before and nothing is left to draw; and a property that is left to layout is
drawn only if a shape marks it as free.
-/

namespace DiagramEnergy

namespace Sampling

/-! ## Sampling the shapes -/

section Shapes

variable (store : Store Float) (catalog : Catalog) (generator : Generator)

theorem kind?_shapes (object name : String) :
    ((shapes store catalog).run generator).1.store.kind? object name =
      store.kind? object name := by
  rw [store_shapes, kind?_write]

/-- Sampling the shapes makes concrete what it draws and keeps everything
else. -/
theorem content?_shapes_cases (path : Path) :
    (Draws store catalog path ∧ ∃ value,
      ((shapes store catalog).run generator).1.store.content? path =
        some (.concrete value)) ∨
    (¬ Draws store catalog path ∧
      ((shapes store catalog).run generator).1.store.content? path =
        store.content? path) := by
  by_cases draws : Draws store catalog path
  · refine .inl ⟨draws, ?_⟩
    obtain ⟨target, member, aimed⟩ := draws_iff.1 draws
    obtain ⟨drawn, -, covered, written⟩ :=
      writtenAll_shapes store catalog generator
    obtain ⟨entry, listed, same⟩ := covered target member
    rcases written.contents path with ⟨value, -, content⟩ | ⟨untouched, -⟩
    · exact ⟨value, content⟩
    · exact absurd (same.trans aimed) (untouched entry listed)
  · exact .inr ⟨draws, content?_shapes_of_not_draws draws⟩

/-- Nothing is left to draw. -/
theorem targets_shapes :
    targets ((shapes store catalog).run generator).1.store catalog = [] := by
  rw [List.eq_nil_iff_forall_not_mem]
  intro target member
  have again := draws_iff.2 ⟨target, member, rfl⟩
  rcases content?_shapes_cases store catalog generator target.1 with
    ⟨-, value, concrete⟩ | ⟨spared, same⟩
  · rcases again.free with absent | marked
    · rw [concrete] at absent
      cases absent
    · rw [concrete] at marked
      cases marked
  · exact spared (again.congr (kind?_shapes store catalog generator) same)

theorem run_shapes_of_no_targets (none : targets store catalog = []) :
    ((shapes store catalog).run generator).1.store = store ∧
      ((shapes store catalog).run generator).2 = generator := by
  unfold shapes
  rw [none]
  exact ⟨rfl, rfl⟩

end Shapes

/-! ## Sampling the fields -/

theorem content?_fields_property (store : Store Float) (catalog : Catalog)
    (canvas : Canvas) (generator : Generator)
    (object name property : String) :
    ((fields store (store.varyingPaths catalog) canvas).run
      generator).1.store.content? (.property object name property) =
        store.content? (.property object name property) := by
  obtain ⟨drawn, drawnFrom, -, written⟩ :=
    writtenAll_fields store catalog canvas generator
  rcases written.contents (.property object name property) with
    ⟨value, member, -⟩ | ⟨-, content⟩
  · obtain ⟨_, _, same, -⟩ := drawnFrom _ member
    cases same
  · exact content

theorem kind?_fields (store : Store Float) (paths : List Path)
    (canvas : Canvas) (generator : Generator) (object name : String) :
    ((fields store paths canvas).run generator).1.store.kind? object name =
      store.kind? object name := by
  rw [store_fields, kind?_write]

end Sampling

namespace Problem

section Sampled

variable {store sampled : Store Float} {catalog : Catalog} {config : Config}
  {generator : Generator} (drawn : ((sample store catalog config
    (store.varyingPaths catalog)).run generator).1.store = sampled)
include drawn

theorem objectNames_sample : sampled.objectNames = store.objectNames := by
  obtain ⟨reached, same⟩ := store_sample store catalog config
    (store.varyingPaths catalog) generator
  rw [← drawn, same, Sampling.store_shapes, Sampling.objectNames_write,
    Sampling.store_fields, Sampling.objectNames_write]

/-- A property is made concrete if sampling draws it, and is kept otherwise. -/
theorem content?_sample_property_cases (object name property : String) :
    (Sampling.Draws store catalog (.property object name property) ∧
      ∃ value, sampled.content? (.property object name property) =
        some (.concrete value)) ∨
    sampled.content? (.property object name property) =
      store.content? (.property object name property) := by
  obtain ⟨reached, same⟩ := store_sample store catalog config
    (store.varyingPaths catalog) generator
  have before := Sampling.content?_fields_property store catalog config.canvas
    generator object name property
  -- Sampling the fields leaves the property and all kinds alone, so that the
  -- shapes draw what they would have drawn from the given store.
  rw [← drawn, same, ← before]
  rcases Sampling.content?_shapes_cases _ catalog reached
      (.property object name property) with ⟨draws, concrete⟩ | ⟨-, kept⟩
  · refine .inl ⟨draws.congr ?_ before, concrete⟩
    exact Sampling.kind?_fields store _ config.canvas generator
  · exact .inr kept

/-- What changes was free and is concrete afterwards. -/
theorem content?_sample_cases (path : Path) :
    ((store.content? path = some (.symbolic .vary) ∨
        Sampling.Draws store catalog path) ∧
      ∃ value, sampled.content? path = some (.concrete value)) ∨
    sampled.content? path = store.content? path := by
  cases path with
  | field object name =>
      rcases content?_sample_field drawn object name with
        ⟨marked, number, concrete⟩ | kept
      · exact .inl ⟨.inl marked, _, concrete⟩
      · exact .inr kept
  | property object name property =>
      rcases content?_sample_property_cases drawn object name property with
        ⟨draws, concrete⟩ | kept
      · exact .inl ⟨.inr draws, concrete⟩
      · exact .inr kept

theorem shapePaths_sample : sampled.shapePaths = store.shapePaths := by
  rw [Store.shapePaths, Store.shapePaths, List.filterMap_eq_flatMap_toList,
    List.filterMap_eq_flatMap_toList]
  apply flatMap_slots_sample drawn
  intro object name before after samples
  cases samples <;> rfl

/-- After sampling, the shapes have nothing left to draw. -/
theorem targets_sample : Sampling.targets sampled catalog = [] := by
  obtain ⟨reached, same⟩ := store_sample store catalog config
    (store.varyingPaths catalog) generator
  rw [← drawn, same]
  exact Sampling.targets_shapes _ catalog reached

end Sampled

/-- A store that differs from another one in what is free there: its values, its
other expressions, its objects, fields and kinds, and the properties with the
reserved name are the same, and the properties that it has beyond them are those
that a kind has and layout does not fill in. -/
structure TouchesFreeSlots (catalog : Catalog) (store sampled : Store Float) :
    Prop where
  contents : ∀ path content, store.content? path = some content →
    content ≠ .symbolic .vary → sampled.content? path = some content
  objectNames : sampled.objectNames = store.objectNames
  slotNames : sampled.slotNames = store.slotNames
  kinds : ∀ object name,
    sampled.kind? object name = store.kind? object name
  reserved : ∀ object name,
    sampled.content? (.property object name reservedProperty) =
      store.content? (.property object name reservedProperty)
  added : ∀ path, store.content? path = none → sampled.content? path ≠ none →
    ∃ object name property kind schema definition,
      path = .property object name property ∧
      store.kind? object name = some kind ∧
      catalog.get? kind = some schema ∧
      schema.properties.get? property = some definition ∧
      definition.pending = false

/-- Sampling touches free slots only.  It changes neither the calls nor the
shapes that are listed, and sampling the shapes once more changes nothing and
draws nothing. -/
theorem sample_touches_free_slots (store : Store Float) (catalog : Catalog)
    (config : Config) (generator : Generator) :
    let sampled := ((sample store catalog config
      (store.varyingPaths catalog)).run generator).1.store
    TouchesFreeSlots catalog store sampled ∧
    sampled.declaredCalls = store.declaredCalls ∧
    sampled.defaultCalls catalog = store.defaultCalls catalog ∧
    sampled.shapePaths = store.shapePaths ∧
    ∀ later : Generator,
      ((Sampling.shapes sampled catalog).run later).1.store = sampled ∧
      ((Sampling.shapes sampled catalog).run later).2 = later := by
  intro sampled
  have drawn : ((sample store catalog config
      (store.varyingPaths catalog)).run generator).1.store = sampled := rfl
  refine ⟨⟨?_, objectNames_sample drawn, slotNames_sample drawn, ?_, ?_, ?_⟩,
    declaredCalls_sample drawn, defaultCalls_sample drawn,
    shapePaths_sample drawn, ?_⟩
  · intro path content held notFree
    rcases content?_sample_cases drawn path with ⟨free, -⟩ | kept
    · have marked : store.content? path = none ∨
          store.content? path = some (.symbolic .vary) :=
        free.elim .inr Sampling.Draws.free
      simp [held, notFree] at marked
    · exact kept.trans held
  · exact kind?_sample store catalog config _ generator
  · intro object name
    rcases content?_sample_property_cases drawn object name
      reservedProperty with ⟨draws, -⟩ | kept
    · exact absurd draws Sampling.Draws.not_reserved
    · exact kept
  · intro path absent present
    rcases content?_sample_cases drawn path with ⟨marked | draws, -⟩ | kept
    · rw [absent] at marked
      cases marked
    · cases draws with
      | property shape known listed wanted =>
          rw [absent] at wanted
          obtain ⟨-, ⟨-, provided⟩ | marked⟩ := Sampling.wants_iff.1 wanted
          · exact ⟨_, _, _, _, _, _, rfl, shape, known, listed, provided⟩
          · cases marked
    · exact absurd (kept.trans absent) present
  · intro later
    exact Sampling.run_shapes_of_no_targets sampled catalog later
      (targets_sample drawn)

/-- The dot keeps the expression for its position and its lack of a name. -/
theorem sample_touches_free_slots_dot :
    let position : Path := .property "A" "dot" "x"
    let sampled := ((sample dotStore dotCatalog {}
      (dotStore.varyingPaths dotCatalog)).run ⟨16⟩).1.store
    dotStore.content? position =
      some (.symbolic (.reference (.field "A" "free"))) ∧
    sampled.content? position = dotStore.content? position ∧
    sampled.content? (.property "A" "dot" reservedProperty) = none ∧
    ((Sampling.shapes sampled dotCatalog).run ⟨7⟩).2 = ⟨7⟩ := by
  intro position sampled
  have held : dotStore.content? position =
      some (.symbolic (.reference (.field "A" "free"))) := by
    rfl
  obtain ⟨touches, -, -, -, again⟩ :=
    sample_touches_free_slots dotStore dotCatalog {} ⟨16⟩
  refine ⟨held, ?_, touches.reserved "A" "dot", (again ⟨7⟩).2⟩
  rw [held]
  exact touches.contents position _ held nofun

end Problem

/-! ## Properties that are left to layout -/

namespace Sampling

/-- A property that layout fills in neither varies nor is left to sampling.  It
is drawn only if a shape marks it as free and it does not have the reserved
name. -/
theorem shapes_draw_pending_iff_marked (store : Store Float)
    {catalog : Catalog} (valid : catalog.validate = .ok ())
    (generator : Generator) {object name property kind : String}
    {schema : ShapeDef} {definition : PropertyDef}
    (shape : store.kind? object name = some kind)
    (known : catalog.get? kind = some schema)
    (listed : schema.properties.get? property = some definition)
    (pending : definition.pending = true) :
    let path := Path.property object name property
    let sampled := ((shapes store catalog).run generator).1.store
    let marked := store.content? path = some (.symbolic .vary) ∧
      property ≠ reservedProperty
    path ∉ store.varyingPaths catalog ∧
    path ∉ store.uninitializedPaths catalog ∧
    (marked → ∃ value, value.type = definition.type ∧
      sampled.content? path = some (.concrete value)) ∧
    (¬ marked → sampled.content? path = store.content? path) := by
  intro path sampled marked
  obtain ⟨properties, found⟩ := Store.kind?_eq_some_iff.1 shape
  refine ⟨?_, ?_, ?_, ?_⟩
  · intro varying
    obtain ⟨_, _, _, _, found', known', listed', -, provided, -⟩ :=
      Store.property_mem_varyingPaths_iff.1 varying
    obtain ⟨rfl, rfl⟩ :=
      Store.same_definition found known listed found' known' listed'
    rw [pending] at provided
    cases provided
  · intro unset
    obtain ⟨_, _, _, _, found', known', listed', isUnset⟩ :=
      Store.property_mem_uninitializedPaths_iff.1 unset
    obtain ⟨rfl, rfl⟩ :=
      Store.same_definition found known listed found' known' listed'
    simp [PropertyDef.isUninitialized, pending] at isUnset
  · rintro ⟨free, ordinary⟩
    rw [Store.content?_of_shape found] at free
    exact content?_shapes_of_target valid found known listed
      (wants_iff.2 ⟨ordinary, .inr free⟩)
  · intro unmarked
    rcases content?_shapes_cases store catalog generator path with
      ⟨draws, -⟩ | ⟨-, kept⟩
    · obtain ⟨_, listed', wanted⟩ :=
        (draws_iff_of_shape found known property).1 draws
      rw [listed] at listed'
      cases listed'
      rw [← Store.content?_of_shape found] at wanted
      obtain ⟨ordinary, ⟨-, provided⟩ | free⟩ := wants_iff.1 wanted
      · rw [pending] at provided
        cases provided
      · exact absurd ⟨free, ordinary⟩ unmarked
    · exact kept

/-- The width of the dot stays absent, while its label becomes a text. -/
theorem shapes_draw_pending_dot :
    let sampled := ((shapes dotStore dotCatalog).run ⟨16⟩).1.store
    sampled.content? (.property "A" "dot" "w") = none ∧
    ∃ value, value.type = .str ∧
      sampled.content? (.property "A" "dot" "label") =
        some (.concrete value) := by
  have valid : dotCatalog.validate = .ok () := by
    rfl
  have shape : dotStore.kind? "A" "dot" = some "Dot" := by
    rfl
  constructor
  · obtain ⟨-, -, -, kept⟩ := @shapes_draw_pending_iff_marked dotStore
      dotCatalog valid ⟨16⟩ "A" "dot" "w" "Dot" _ _ shape rfl rfl rfl
    exact kept fun marked => nomatch marked.1
  · obtain ⟨-, -, drawn, -⟩ := @shapes_draw_pending_iff_marked dotStore
      dotCatalog valid ⟨16⟩ "A" "dot" "label" "Dot" _ _ shape rfl rfl rfl
    exact drawn ⟨rfl, by decide⟩

/-- A mark draws a property although it is left to layout. -/
theorem not_shapes_spare_pending_dot :
    ∃ schema definition, dotCatalog.validate = .ok () ∧
      dotStore.kind? "A" "dot" = some "Dot" ∧
      dotCatalog.get? "Dot" = some schema ∧
      schema.properties.get? "label" = some definition ∧
      definition.pending = true ∧
      ((shapes dotStore dotCatalog).run ⟨16⟩).1.store.content?
          (.property "A" "dot" "label") ≠
        dotStore.content? (.property "A" "dot" "label") := by
  refine ⟨_, _, rfl, rfl, rfl, rfl, rfl, fun kept => ?_⟩
  have draws : Draws dotStore dotCatalog (.property "A" "dot" "label") :=
    .property rfl rfl rfl rfl
  rcases content?_shapes_cases dotStore dotCatalog ⟨16⟩ _ with
    ⟨-, value, concrete⟩ | ⟨spared, -⟩
  · rw [kept] at concrete
    cases concrete
  · exact spared draws

end Sampling

end DiagramEnergy
