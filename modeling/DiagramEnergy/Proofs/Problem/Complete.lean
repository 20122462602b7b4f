import DiagramEnergy.Proofs.Evaluation.Parts
import DiagramEnergy.Proofs.Problem.Reached

/-!
# Nothing is left unset

Sampling fills the marked fields and every property of a known kind that layout
does not fill in.  What is still marked after it belongs to some shape, and that
shape could not have been evaluated.  So an assembled problem has a value or an
expression for everything, and all its shapes are complete.
-/

namespace DiagramEnergy

variable {σ : Type}

namespace Problem

/-! ## After sampling -/

section Sampled

variable {store : Store Float} {catalog : Catalog}

theorem content?_sample_field_ne_vary (store : Store Float)
    (catalog : Catalog) (config : Config)
    (generator : Generator) (object name : String) :
    ((sample store catalog config (store.varyingPaths catalog)).run
      generator).1.store.content? (.field object name) ≠
        some (.symbolic .vary) := by
  obtain ⟨reached, same⟩ := store_sample store catalog config
    (store.varyingPaths catalog) generator
  rw [same, Sampling.content?_shapes_field]
  exact Sampling.content?_fields_ne_vary config.canvas generator object name

theorem kind?_sample (store : Store Float) (catalog : Catalog)
    (config : Config) (paths : List Path) (generator : Generator)
    (object name : String) :
    ((sample store catalog config paths).run generator).1.store.kind?
      object name = store.kind? object name := by
  obtain ⟨reached, same⟩ := store_sample store catalog config paths generator
  rw [same, Sampling.store_shapes, Sampling.kind?_write, Sampling.store_fields,
    Sampling.kind?_write]

/-- After sampling, a shape has every property of its kind that layout does not
fill in. -/
theorem isSome_content?_sample (valid : catalog.validate = .ok ())
    (config : Config) (generator : Generator)
    {object name property kind : String}
    {properties : Table String (Content Float)} {shape : ShapeDef}
    {definition : PropertyDef}
    (found : store.slot? object name = some (.shape kind properties))
    (known : catalog.get? kind = some shape)
    (listed : shape.properties.get? property = some definition)
    (provided : definition.pending = false)
    (ordinary : property ≠ reservedProperty) :
    (((sample store catalog config (store.varyingPaths catalog)).run
      generator).1.store.content?
        (.property object name property)).isSome := by
  obtain ⟨reached, same⟩ := store_sample store catalog config
    (store.varyingPaths catalog) generator
  have unchanged := slot?_fields_of_shape catalog config generator found
  rw [same]
  cases held : properties.get? property with
  | some content =>
      apply Sampling.isSome_content?_shapes
      rw [Store.content?_of_shape unchanged, held]
      rfl
  | none =>
      have wanted : Sampling.wants definition property
          (properties.get? property) = true := by
        simp [Sampling.wants, held, provided, ordinary]
      obtain ⟨value, -, content⟩ := Sampling.content?_shapes_of_target
        valid unchanged known listed wanted
      rw [content]
      rfl

/-- A property that sampling alone provides holds a value of its type. -/
theorem content?_sample_of_uninitialized (valid : catalog.validate = .ok ())
    (config : Config) (generator : Generator)
    {object name property kind : String}
    {properties : Table String (Content Float)} {shape : ShapeDef}
    {definition : PropertyDef}
    (found : store.slot? object name = some (.shape kind properties))
    (known : catalog.get? kind = some shape)
    (listed : shape.properties.get? property = some definition)
    (unset : definition.isUninitialized property
      (properties.get? property) = true) :
    ∃ value : Value Float, value.type = definition.type ∧
      ((sample store catalog config (store.varyingPaths catalog)).run
        generator).1.store.content? (.property object name property) =
          some (.concrete value) := by
  obtain ⟨reached, same⟩ := store_sample store catalog config
    (store.varyingPaths catalog) generator
  rw [same]
  have unchanged := slot?_fields_of_shape catalog config generator found
  have wanted : Sampling.wants definition property
      (properties.get? property) = true := by
    simp only [PropertyDef.isUninitialized, Bool.and_eq_true,
      Option.isNone_iff_eq_none] at unset
    obtain ⟨⟨⟨-, provided⟩, ordinary⟩, absent⟩ := unset
    simp [Sampling.wants, ordinary, absent, provided]
  exact Sampling.content?_shapes_of_target valid unchanged known listed wanted

end Sampled

/-! ## After assembly -/

variable {problem : Problem σ} {store : Store Float} {catalog : Catalog}
  {registries : Registries σ Float} {config : Config} {values : List Float}
  {shapes : List (Shape Float)}

theorem Assembled.slot?_of_shape
    (assembled : Assembled store catalog registries config problem)
    {object name kind : String} {properties : Table String (Content Float)}
    (found : problem.store.slot? object name =
      some (.shape kind properties)) :
    ∃ before, store.slot? object name = some (.shape kind before) := by
  obtain ⟨notices, drawn⟩ := assembled.sampled
  have kinds := kind?_sample store catalog config (store.varyingPaths catalog)
    ⟨config.seed⟩ object name
  rw [drawn, Store.kind?_eq_some_iff.2 ⟨properties, found⟩] at kinds
  exact Store.kind?_eq_some_iff.1 kinds.symm

/-- Every property of a kind that layout does not fill in is listed. -/
theorem Assembled.mem_keys_of_schema
    (assembled : Assembled store catalog registries config problem)
    {object name property kind : String}
    {properties : Table String (Content Float)} {schema : ShapeDef}
    {definition : PropertyDef}
    (found : problem.store.slot? object name = some (.shape kind properties))
    (known : catalog.get? kind = some schema)
    (listed : schema.properties.get? property = some definition)
    (provided : definition.pending = false)
    (ordinary : property ≠ reservedProperty) :
    property ∈ properties.keys := by
  obtain ⟨notices, drawn⟩ := assembled.sampled
  obtain ⟨before, original⟩ := assembled.slot?_of_shape found
  have held := isSome_content?_sample assembled.validCatalog config
    ⟨config.seed⟩ original known listed provided ordinary
  rw [drawn, Store.content?_of_shape found] at held
  exact Table.mem_keys_iff.2 held

/-- A marker that is left would be in a shape that has been evaluated. -/
theorem Assembled.content?_ne_vary
    (assembled : Assembled store catalog registries config problem)
    (path : Path) : problem.store.content? path ≠ some (.symbolic .vary) := by
  intro marked
  cases path with
  | field object name =>
      obtain ⟨notices, drawn⟩ := assembled.sampled
      have unmarked := content?_sample_field_ne_vary store catalog config
        ⟨config.seed⟩ object name
      rw [drawn] at unmarked
      exact unmarked marked
  | property object name property =>
      have content := marked
      rw [Store.content?_eq_slot?, Option.bind_eq_some_iff] at content
      obtain ⟨slot, found, held⟩ := content
      cases slot with
      | scalar present => cases held
      | shape kind properties =>
          obtain ⟨world, evaluated, -⟩ := assembled.evaluated
          obtain ⟨sameLength, provides⟩ :=
            Evaluator.provides_of_evalShapes evaluated
          have named : .field object name ∈ problem.shapeNames := by
            rw [assembled.shapeNames]
            exact Store.mem_shapePaths_iff.2
              ⟨object, name, kind, properties, found, rfl⟩
          obtain ⟨shape, paired⟩ := exists_mem_zip sameLength named
          have asked : problem.store.demand .empty (.field object name) =
              .ok (.assemble kind properties.keys) :=
            Store.demand_assemble_iff.2 ⟨rfl, rfl, properties, found, rfl⟩
          have listed : property ∈ properties.keys := by
            apply Table.mem_keys_iff.2
            rw [show properties.get? property = some (.symbolic .vary) from held]
            rfl
          exact (provides _ _ paired kind _ asked).chosen property listed
            (Store.demand_evaluate_iff.2 ⟨rfl, marked⟩)

/-- The shapes at any varying values are assembled from what their slots list. -/
theorem Settled.provides (settled : problem.Settled registries)
    (shows : problem.Shows values shapes) :
    shapes.length = problem.shapeNames.length ∧
    ∀ path shape, (path, shape) ∈ problem.shapeNames.zip shapes →
      ∃ object name properties, path = .field object name ∧
        problem.store.slot? object name =
          some (.shape shape.kind properties) ∧
        shape.get? "name" = some (.str path.text) ∧
        ∀ property, shape.has property = true ↔
          property = "name" ∨ property ∈ properties.keys := by
  obtain ⟨overrides, world, paired, evaluated⟩ := shows
  obtain ⟨sameLength, provides⟩ := Evaluator.provides_of_evalShapes evaluated
  refine ⟨sameLength, ?_⟩
  intro path shape member
  obtain ⟨object, name, kind, properties, rfl, found, asked⟩ :=
    settled.demand_of_mem_shapeNames paired (List.of_mem_zip member).1
  obtain ⟨parts, rfl, sameNames⟩ :=
    (provides _ _ member kind _ asked).assembled
  refine ⟨object, name, properties, rfl, found, Shape.get?_name_assembled, ?_⟩
  intro property
  rw [Shape.has_assembled_iff, sameNames]

/-- An assembled problem has no marker of a free slot left.  What sampling had to
provide holds a value of the type that the catalog gives it, and the shapes, now
and wherever they can be evaluated, have exactly a name and the properties that
are listed, among them all properties of their kind that layout does not fill
in. -/
theorem assemble_leaves_nothing_unset {detail : Option Level}
    {run later : RunState σ}
    (ran : assemble detail store catalog registries config run =
      .ok problem later) :
    (∀ path, problem.store.content? path ≠ some (.symbolic .vary)) ∧
    (∀ path ∈ problem.uninitializedPaths,
      ∃ object name property kind properties schema definition value,
        path = .property object name property ∧
        problem.store.slot? object name = some (.shape kind properties) ∧
        catalog.get? kind = some schema ∧
        schema.properties.get? property = some definition ∧
        problem.store.content? path = some (.concrete value) ∧
        value.type = definition.type) ∧
    problem.shapePropertyPaths.Nodup ∧
    (∀ path, path ∈ problem.shapePropertyPaths ↔
      ∃ object name kind properties,
        problem.store.slot? object name = some (.shape kind properties) ∧
        ∃ property ∈ properties.keys,
          path = .property object name property) ∧
    ∀ shapes, (shapes = problem.shapes ∨ ∃ values seen,
        (problem.shapesAt values).outcome seen = .ok shapes) →
      shapes.length = problem.shapeNames.length ∧
      ∀ path shape, (path, shape) ∈ problem.shapeNames.zip shapes →
        ∃ object name properties, path = .field object name ∧
          problem.store.slot? object name =
            some (.shape shape.kind properties) ∧
          shape.get? "name" = some (.str path.text) ∧
          (∀ property, shape.has property = true ↔
            property = "name" ∨ property ∈ properties.keys) ∧
          ∀ schema property definition,
            catalog.get? shape.kind = some schema →
            schema.properties.get? property = some definition →
            definition.pending = false → shape.has property = true := by
  have assembled := assembled_of_assemble ran
  refine ⟨assembled.content?_ne_vary, ?_, ?_, ?_, ?_⟩
  · intro path initialized
    rw [assembled.uninitializedPaths] at initialized
    obtain ⟨object, name, property, kind, before, schema, definition, original,
      known, listed, unset, rfl⟩ :=
        Store.mem_uninitializedPaths_iff.1 initialized
    obtain ⟨notices, drawn⟩ := assembled.sampled
    obtain ⟨value, typed, content⟩ := content?_sample_of_uninitialized
      assembled.validCatalog config ⟨config.seed⟩ original known listed unset
    have kinds := kind?_sample store catalog config
      (store.varyingPaths catalog) ⟨config.seed⟩ object name
    rw [Store.kind?_eq_some_iff.2 ⟨before, original⟩] at kinds
    obtain ⟨properties, found⟩ := Store.kind?_eq_some_iff.1 kinds
    rw [drawn] at content found
    exact ⟨object, name, property, kind, properties, schema, definition, value,
      rfl, found, known, listed, content, typed⟩
  · rw [assembled.shapePropertyPaths]
    exact problem.store.propertyPaths_nodup
  · intro path
    rw [assembled.shapePropertyPaths]
    exact Store.mem_propertyPaths_iff
  · intro shapes shown
    have shows : ∃ values, problem.Shows values shapes := by
      rcases shown with rfl | ⟨values, seen, shown⟩
      · exact ⟨_, assembled.shows⟩
      · exact ⟨values, shows_of_outcome shown⟩
    obtain ⟨values, shows⟩ := shows
    obtain ⟨sameLength, provides⟩ := assembled.settled.provides shows
    refine ⟨sameLength, ?_⟩
    intro path shape member
    obtain ⟨object, name, properties, same, found, named, keys⟩ :=
      provides path shape member
    refine ⟨object, name, properties, same, found, named, keys, ?_⟩
    intro schema property definition known listed provided
    apply (keys property).2
    by_cases reserved : property = reservedProperty
    · exact .inl reserved
    · exact .inr (assembled.mem_keys_of_schema found known listed provided
        reserved)

/-- Tags with a label beside their size. -/
def labelledCatalog : Catalog :=
  ⟨Table.empty.insert "Tag" {
    properties := (Table.empty.insert "label"
      { type := .str, sampler := .fixed (.str "tag") }).insert "size"
      { type := .float, sampler := .fixed (.float 1) } }⟩

/-- The store with one tag, whose label and size have been sampled. -/
def labelledTagStore : Store Float :=
  (Store.empty.declare "A").bind "A" "tag" (.shape "Tag"
    ((Table.empty.insert "label" (.concrete (.str "tag"))).insert "size"
      (.concrete (.float 1))))

theorem sample_labelled :
    (sample tagStore labelledCatalog { recursionLimit := 9 }
      (tagStore.varyingPaths labelledCatalog)).run ⟨16⟩ =
        (⟨labelledTagStore, []⟩, ⟨16⟩) := by
  rfl

theorem succeeds_assemble_labelled :
    (assemble none tagStore labelledCatalog (.empty : Registries Unit Float)
      { recursionLimit := 9 }).Succeeds () := by
  have shaped : Evaluation.forget ((Evaluator.capped .empty 9).evalShapes
      .empty labelledTagStore.shapePaths ⟨labelledTagStore, (), []⟩) =
        (.ok [.assembled (.field "A" "tag") "Tag"
          [("label", .str "tag"), ("size", .float 1)]],
          ⟨labelledTagStore, ()⟩) := by
    cbv
  have someVarying : tagStore.varyingPaths labelledCatalog ≠ [] := by
    intro none
    cases none
  exact succeeds_assemble none rfl rfl rfl someVarying sample_labelled rfl
    shaped rfl

/-- The label of the tag is the one property that is sampled without varying. -/
theorem assemble_leaves_nothing_unset_tag :
    let label : Path := .property "A" "tag" "label"
    ∃ (problem : Problem Unit) (later : RunState Unit),
      assemble none tagStore labelledCatalog .empty { recursionLimit := 9 }
        ⟨(), []⟩ = .ok problem later ∧
      (∀ path, problem.store.content? path ≠ some (.symbolic .vary)) ∧
      problem.uninitializedPaths = [label] ∧
      (∃ value, problem.store.content? label = some (.concrete value) ∧
        value.type = .str) ∧
      problem.shapePropertyPaths.Nodup ∧
      label ∈ problem.shapePropertyPaths ∧
      problem.shapes.length = problem.shapeNames.length ∧
      ∀ path shape, (path, shape) ∈ problem.shapeNames.zip problem.shapes →
        shape.get? "name" = some (.str path.text) ∧
        shape.has "label" = true ∧ shape.has "size" = true := by
  intro label
  obtain ⟨problem, later, ran⟩ := succeeds_assemble_labelled ⟨(), []⟩ rfl
  obtain ⟨unmarked, provided, distinct, keys, complete⟩ :=
    assemble_leaves_nothing_unset ran
  have assembled := assembled_of_assemble ran
  have reached : problem.store = labelledTagStore := by
    obtain ⟨notices, drawn⟩ := assembled.sampled
    rw [sample_labelled] at drawn
    have stores := congrArg (fun outcome => outcome.1.store) drawn
    exact stores.symm
  have unset : problem.uninitializedPaths = [label] :=
    assembled.uninitializedPaths
  have slot : problem.store.slot? "A" "tag" = some (.shape "Tag"
      ((Table.empty.insert "label" (.concrete (.str "tag"))).insert "size"
        (.concrete (.float 1)))) := by
    rw [reached]
    rfl
  refine ⟨problem, later, ran, unmarked, unset, ?_, distinct, ?_, ?_, ?_⟩
  · obtain ⟨_, _, _, _, _, _, _, value, same, found, known, listed, content,
      typed⟩ := provided label (by simp [unset])
    obtain ⟨rfl, rfl, rfl⟩ := Path.property.inj same
    rw [slot] at found
    obtain ⟨rfl, -⟩ := Slot.shape.inj (Option.some.inj found)
    cases known
    cases listed
    exact ⟨value, content, typed⟩
  · exact (keys label).2 ⟨"A", "tag", _, _, slot, "label", by decide, rfl⟩
  · exact (complete problem.shapes (.inl rfl)).1
  · intro path shape member
    obtain ⟨object, name, properties, same, found, named, -, schema⟩ :=
      (complete problem.shapes (.inl rfl)).2 path shape member
    have only : path ∈ [Path.field "A" "tag"] := by
      have listed := (List.of_mem_zip member).1
      rw [assembled.shapeNames, reached] at listed
      exact listed
    rw [same, List.mem_singleton] at only
    cases only
    rw [slot] at found
    have kind := (Slot.shape.inj (Option.some.inj found)).1
    rw [← kind] at schema
    exact ⟨named, schema _ "label" _ rfl rfl rfl, schema _ "size" _ rfl rfl rfl⟩

end Problem

end DiagramEnergy
