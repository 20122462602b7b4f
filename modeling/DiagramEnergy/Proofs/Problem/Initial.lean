import DiagramEnergy.Problem
import DiagramEnergy.Proofs.Evaluation.Shapes
import DiagramEnergy.Proofs.Sampling

/-!
# Initial values of varying paths

Sampling gives every varying path a float, except for a numeric property with
the reserved name.  Such a property is listed as varying and never sampled, so
its initial value cannot be read.
-/

namespace DiagramEnergy

variable {σ : Type}

namespace Problem

variable {store : Store Float} {catalog : Catalog} {path : Path}

theorem store_sample (store : Store Float) (catalog : Catalog)
    (config : Config) (paths : List Path) (generator : Generator) :
    ∃ reached, ((sample store catalog config paths).run generator).1.store =
      ((Sampling.shapes ((Sampling.fields store paths config.canvas).run
        generator).1.store catalog).run reached).1.store :=
  ⟨((Sampling.fields store paths config.canvas).run generator).2, rfl⟩

theorem slot?_fields_of_shape (catalog : Catalog) (config : Config)
    (generator : Generator) {object name kind : String}
    {properties : Table String (Content Float)}
    (found : store.slot? object name = some (.shape kind properties)) :
    ((Sampling.fields store (store.varyingPaths catalog) config.canvas).run
      generator).1.store.slot? object name = some (.shape kind properties) := by
  rw [Sampling.slot?_fields]
  · exact found
  · simp [found]

theorem wants_of_varies {definition : PropertyDef} {name : String}
    {content : Option (Content Float)} (ordinary : name ≠ reservedProperty)
    (varies : definition.varies content = true) :
    Sampling.wants definition name content = true := by
  simp only [PropertyDef.varies, Bool.and_eq_true] at varies
  have different : (name != reservedProperty) = true := by
    simpa using ordinary
  cases content with
  | none => simpa [Sampling.wants, different] using varies.1.2
  | some present => simpa [Sampling.wants, different] using varies.2

theorem float_of_type {value : Value Float} (typed : value.type = .float) :
    ∃ number, value = .float number := by
  cases value with
  | float number => exact ⟨number, rfl⟩
  | _ => cases typed

/-- A varying path with an ordinary name holds a float after sampling. -/
theorem content?_sample_of_ordinary (valid : catalog.validate = .ok ())
    (config : Config) (generator : Generator)
    (varies : store.Varies catalog path)
    (ordinary : path.propertyName? ≠ some reservedProperty) :
    ∃ number, ((sample store catalog config
      (store.varyingPaths catalog)).run generator).1.store.content? path =
        some (.concrete (.float number)) := by
  obtain ⟨reached, same⟩ := store_sample store catalog config
    (store.varyingPaths catalog) generator
  rw [same]
  cases varies with
  | @field object name found =>
      obtain ⟨number, content⟩ := Sampling.content?_fields found
      rw [Sampling.content?_shapes_field]
      exact ⟨number, content⟩
  | @property object name property kind properties shape definition found known
      listed varies =>
      have differs : property ≠ reservedProperty := by
        intro reserved
        exact ordinary (congrArg some reserved)
      have unchanged := slot?_fields_of_shape catalog config generator found
      obtain ⟨value, typed, content⟩ := Sampling.content?_shapes_of_target
        valid unchanged known listed (wants_of_varies differs varies)
      simp only [PropertyDef.varies, PropertyDef.isNumeric, Bool.and_eq_true,
        beq_iff_eq] at varies
      obtain ⟨number, rfl⟩ := float_of_type (typed.trans varies.1.1)
      exact ⟨number, content⟩

/-- A varying path with the reserved name stays as empty as it was. -/
theorem content?_sample_of_reserved (config : Config) (generator : Generator)
    (varies : store.Varies catalog path)
    (reserved : path.propertyName? = some reservedProperty) :
    ((sample store catalog config
      (store.varyingPaths catalog)).run generator).1.store.content? path =
        store.content? path ∧
    (store.content? path = none ∨
      store.content? path = some (.symbolic .vary)) := by
  obtain ⟨reached, same⟩ := store_sample store catalog config
    (store.varyingPaths catalog) generator
  cases varies with
  | field => cases reserved
  | @property object name property kind properties shape definition found known
      listed varies =>
      have named : property = reservedProperty := Option.some.inj reserved
      have unchanged := slot?_fields_of_shape catalog config generator found
      constructor
      · rw [same, Sampling.content?_shapes_of_not_draws,
          Store.content?_of_shape unchanged, Store.content?_of_shape found]
        rw [named]
        exact Sampling.Draws.not_reserved
      · rw [Store.content?_of_shape found]
        simp only [PropertyDef.varies, Bool.and_eq_true] at varies
        cases content : properties.get? property with
        | none => exact .inl rfl
        | some present =>
            rw [content] at varies
            have marked : present.isVary = true := by simpa using varies.2
            rw [Content.isVary_iff.1 marked]
            exact .inr rfl

theorem initialValue_of_float {evaluated : Store Float} {number : Float}
    (found : evaluated.content? path = some (.concrete (.float number))) :
    initialValue evaluated path = .ok number := by
  simp only [initialValue, Store.value?, found, Option.bind_some,
    Content.value?]

theorem initialValue_of_empty {evaluated : Store Float}
    (empty : evaluated.content? path = none ∨
      evaluated.content? path = some (.symbolic .vary)) :
    initialValue evaluated path = .error (.unknownPath path) := by
  rcases empty with absent | marked
  · simp only [initialValue, Store.value?, absent, Option.bind_none]
  · simp only [initialValue, Store.value?, marked, Option.bind_some,
      Content.value?]

/-- Evaluation neither fills a marker nor adds a property. -/
theorem empty_of_filled {start later : Store Float}
    {overrides : Overrides Float}
    (filled : start.Filled overrides (start.fillable fun _ => True) later)
    (empty : start.content? path = none ∨
      start.content? path = some (.symbolic .vary)) :
    later.content? path = none ∨
      later.content? path = some (.symbolic .vary) := by
  rcases empty with absent | marked
  · exact .inl (filled.content?_none absent)
  · rcases filled.contents path with same | ⟨_, _, _, ⟨_, unmarked⟩, _⟩
    · rw [same]
      exact .inr marked
    · exact absurd marked unmarked

/-- After sampling, exactly the varying paths without the reserved name hold a
float, and exactly these can be read back from a store whose shapes have been
evaluated; the others lead nowhere. -/
theorem sampled_float_iff_ordinary (store : Store Float) (catalog : Catalog)
    (valid : catalog.validate = .ok ()) (config : Config)
    (generator : Generator) (path : Path)
    (varying : path ∈ store.varyingPaths catalog) :
    let sampled := ((sample store catalog config
      (store.varyingPaths catalog)).run generator).1.store
    ((∃ number, sampled.content? path = some (.concrete (.float number))) ↔
      path.propertyName? ≠ some reservedProperty) ∧
    ∀ (evaluator : Evaluator σ Float) (overrides : Overrides Float)
      (shapes : List Path) (pass : Pass σ Float), pass.store = sampled →
      let evaluated := (Evaluation.forget
        (evaluator.evalShapes overrides shapes pass)).2.store
      (path.propertyName? ≠ some reservedProperty → ∃ number,
        sampled.content? path = some (.concrete (.float number)) ∧
        initialValue evaluated path = .ok number) ∧
      (path.propertyName? = some reservedProperty →
        initialValue evaluated path = .error (.unknownPath path)) := by
  intro sampled
  have varies := Store.mem_varyingPaths_iff.1 varying
  have filled : path.propertyName? ≠ some reservedProperty →
      ∃ number, sampled.content? path = some (.concrete (.float number)) :=
    content?_sample_of_ordinary valid config generator varies
  have spared : path.propertyName? = some reservedProperty →
      sampled.content? path = none ∨
        sampled.content? path = some (.symbolic .vary) := by
    intro reserved
    obtain ⟨same, empty⟩ :=
      content?_sample_of_reserved config generator varies reserved
    rw [← same] at empty
    exact empty
  constructor
  · constructor
    · intro ⟨number, found⟩ reserved
      rcases spared reserved with absent | marked
      · rw [absent] at found
        cases found
      · rw [marked] at found
        cases found
    · exact filled
  · intro evaluator overrides shapes pass start evaluated
    have evaluation : sampled.Filled overrides
        (sampled.fillable fun _ => True) evaluated := by
      rw [← start]
      exact Evaluator.filled_evalShapes shapes pass
    constructor
    · intro ordinary
      obtain ⟨number, found⟩ := filled ordinary
      exact ⟨number, found,
        initialValue_of_float (evaluation.content?_concrete found)⟩
    · intro reserved
      exact initialValue_of_empty
        (empty_of_filled evaluation (spared reserved))

/-- A catalog with one kind, whose only property has a given name. -/
def tagCatalog (property : String) : Catalog :=
  ⟨Table.empty.insert "Tag" {
    properties := Table.empty.insert property
      { type := .float, sampler := .fixed (.float 1) } }⟩

def tagStore : Store Float :=
  (Store.empty.declare "A").bind "A" "tag" (.shape "Tag" .empty)

theorem varyingPaths_tag (property : String) :
    tagStore.varyingPaths (tagCatalog property) =
      [.property "A" "tag" property] := by
  rfl

theorem sampled_float_tag :
    (tagCatalog "size").validate = .ok () ∧
    Path.property "A" "tag" "size" ∈
      tagStore.varyingPaths (tagCatalog "size") ∧
    ∃ number, ((sample tagStore (tagCatalog "size") {}
      (tagStore.varyingPaths (tagCatalog "size"))).run ⟨16⟩).1.store.content?
        (.property "A" "tag" "size") = some (.concrete (.float number)) := by
  have valid : (tagCatalog "size").validate = .ok () := by rfl
  have varying : Path.property "A" "tag" "size" ∈
      tagStore.varyingPaths (tagCatalog "size") := by
    rw [varyingPaths_tag]
    exact List.mem_singleton_self _
  have sampled := sampled_float_iff_ordinary (σ := Unit) tagStore
    (tagCatalog "size") valid {} ⟨16⟩ (.property "A" "tag" "size") varying
  exact ⟨valid, varying, sampled.1.2 (by decide)⟩

/-- The reserved name keeps a varying path from being sampled. -/
theorem not_sampled_float_reserved_tag :
    ¬ ∀ path ∈ tagStore.varyingPaths (tagCatalog reservedProperty),
      ∃ number, ((sample tagStore (tagCatalog reservedProperty) {}
        (tagStore.varyingPaths (tagCatalog reservedProperty))).run
          ⟨16⟩).1.store.content? path = some (.concrete (.float number)) := by
  intro every
  have varying : Path.property "A" "tag" reservedProperty ∈
      tagStore.varyingPaths (tagCatalog reservedProperty) := by
    rw [varyingPaths_tag]
    exact List.mem_singleton_self _
  obtain ⟨number, found⟩ := every _ varying
  have unchanged := (content?_sample_of_reserved {} ⟨16⟩
    (Store.mem_varyingPaths_iff.1 varying) rfl).1
  have absent : tagStore.content?
      (.property "A" "tag" reservedProperty) = none := by
    rfl
  rw [unchanged, absent] at found
  cases found

end Problem

end DiagramEnergy
