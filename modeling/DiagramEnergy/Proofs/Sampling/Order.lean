import DiagramEnergy.Proofs.Sampling.Untouched
import Mathlib.Logic.Function.Iterate

/-!
# The order of the draws

Sampling draws one share for every free field, in the order of the store, and
then a value for every property that wants one, by object, by field and by
property.  Each draw continues where the one before it has left the generator,
and no later write disturbs what has been drawn.

Main statement: `drawsInOrder_sample`.
-/

namespace DiagramEnergy

variable {α β : Type}

namespace Random

/-- The generator that is left when some items have been drawn in order. -/
def after (draw : β → Random α) (items : List β) (generator : Generator) :
    Generator :=
  items.foldl (fun reached item => ((draw item).run reached).2) generator

/-- The generator that is left after a number of shares. -/
def skip (count : Nat) (generator : Generator) : Generator :=
  (fun reached => (unit.run reached).2)^[count] generator

theorem result_bind_pure (draw : Random β) (change : β → α)
    (generator : Generator) :
    ((do return change (← draw) : Random α).run generator).1 =
      change (draw.run generator).1 := by
  rfl

theorem generator_bind {draw : Random β} {next : β → Random α}
    (still : ∀ result reached, ((next result).run reached).2 = reached)
    (generator : Generator) :
    ((draw >>= next).run generator).2 = (draw.run generator).2 :=
  still _ _

theorem generator_bind_pure (draw : Random β) (change : β → α)
    (generator : Generator) :
    ((do return change (← draw) : Random α).run generator).2 =
      (draw.run generator).2 := by
  rfl

theorem generator_mapM (draw : β → Random α) (items : List β)
    (generator : Generator) :
    ((items.mapM draw).run generator).2 = after draw items generator := by
  induction items generalizing generator with
  | nil => rfl
  | cons item items induction =>
      rw [List.mapM_cons]
      exact induction ((draw item).run generator).2

/-- Each item is drawn from what the items before it have left. -/
theorem getElem?_mapM (draw : β → Random α) (items : List β)
    (generator : Generator) (index : Nat) :
    ((items.mapM draw).run generator).1[index]? =
      items[index]?.map fun item =>
        ((draw item).run (after draw (items.take index) generator)).1 := by
  induction items generalizing generator index with
  | nil => rfl
  | cons item items induction =>
      rw [List.mapM_cons]
      cases index with
      | zero => rfl
      | succ index => exact induction ((draw item).run generator).2 index

theorem map_fst_mapM {draw : β → Random (Path × α)} {aim : β → Path}
    (aimed : ∀ item, (draw item).Always fun drawn => drawn.1 = aim item)
    (items : List β) (generator : Generator) :
    ((items.mapM draw).run generator).1.map Prod.fst = items.map aim := by
  induction items generalizing generator with
  | nil => rfl
  | cons item items induction =>
      rw [List.mapM_cons, List.map_cons, ← aimed item generator,
        ← induction ((draw item).run generator).2]
      rfl

end Random

/-! ## Lists in the order of a store -/

namespace Path

theorem not_precedes_both {left right : Path} (forth : left.Precedes right) :
    ¬ right.Precedes left := by
  intro back
  have larger := Std.OrientedCmp.gt_of_lt back
  rw [show compare left.names right.names = .lt from forth] at larger
  cases larger

theorem eq_of_increasing (aim : α → Path) {left right : List α}
    (leftIncreasing : left.Pairwise fun earlier later =>
      (aim earlier).Precedes (aim later))
    (rightIncreasing : right.Pairwise fun earlier later =>
      (aim earlier).Precedes (aim later))
    (members : ∀ item, item ∈ left ↔ item ∈ right) : left = right := by
  have distinct : ∀ {earlier later : α},
      (aim earlier).Precedes (aim later) → earlier ≠ later := by
    intro earlier later precedes same
    subst same
    exact not_precedes_both precedes precedes
  have permutation : left.Perm right :=
    (List.perm_ext_iff_of_nodup (leftIncreasing.imp distinct)
      (rightIncreasing.imp distinct)).2 members
  exact permutation.eq_of_pairwise
    (fun first second _ _ forth back => absurd back (not_precedes_both forth))
    leftIncreasing rightIncreasing

end Path

namespace Sampling

variable {store : Store Float} {catalog : Catalog}

/-- The fields that sampling draws. -/
def freeFields (store : Store Float) (catalog : Catalog) : List Path :=
  (store.varyingPaths catalog).filter Path.isField

theorem freeFields_increasing (store : Store Float) (catalog : Catalog) :
    (freeFields store catalog).Pairwise Path.Precedes :=
  (store.varyingPaths_increasing catalog).filter _

theorem mem_freeFields_iff {path : Path} :
    path ∈ freeFields store catalog ↔
      path.isField = true ∧
        store.content? path = some (.symbolic .vary) := by
  rw [freeFields, List.mem_filter, and_comm]
  apply and_congr_right
  intro isField
  cases path with
  | property object name property => cases isField
  | field object name =>
      rw [Store.field_mem_varyingPaths_iff, Store.content?_eq_slot?,
        Path.object, Path.fieldName]
      cases store.slot? object name with
      | none => simp
      | some slot => cases slot <;> simp [Slot.contentAt]

theorem targets_increasing (store : Store Float) (catalog : Catalog) :
    (targets store catalog).Pairwise fun earlier later =>
      earlier.1.Precedes later.1 := by
  rw [targets]
  apply store.increasing_flatMap_slots Prod.fst
  · intro entry
    obtain ⟨object, name, slot⟩ := entry
    cases slot with
    | scalar content => exact .nil
    | shape kind properties =>
        dsimp only
        cases catalog.get? kind with
        | none => exact .nil
        | some schema =>
            rw [List.pairwise_map]
            apply (schema.properties.increasing.filter _).imp
            intro left right smaller
            exact Path.property_precedes smaller
  · intro entry target member
    obtain ⟨object, name, slot⟩ := entry
    cases slot with
    | scalar content => cases member
    | shape kind properties =>
        dsimp only at member
        cases known : catalog.get? kind with
        | none =>
            rw [known] at member
            cases member
        | some schema =>
            rw [known] at member
            obtain ⟨listed, -, rfl⟩ := List.mem_map.1 member
            rfl

/-! ## What decides about a target -/

theorem wants_congr {definition : PropertyDef} {name : String}
    {before after : Option (Content Float)}
    (marks : before.map Content.isVary = after.map Content.isVary) :
    wants definition name before = wants definition name after := by
  cases before with
  | none =>
      cases after with
      | none => rfl
      | some present => cases marks
  | some content =>
      cases after with
      | none => cases marks
      | some present =>
          rw [Option.map_some, Option.map_some, Option.some.injEq] at marks
          simp only [wants, marks]

theorem mem_targets_iff_content {target : Path × Sampler} :
    target ∈ targets store catalog ↔
      ∃ object name property kind schema definition,
        store.kind? object name = some kind ∧
        catalog.get? kind = some schema ∧
        schema.properties.get? property = some definition ∧
        wants definition property
          (store.content? (.property object name property)) = true ∧
        target = (.property object name property, definition.sampler) := by
  rw [mem_targets_iff]
  constructor
  · intro listing
    obtain ⟨object, name, property, kind, properties, schema, definition,
      found, known, listed, wanted, aimed⟩ := listing
    rw [← Store.content?_of_shape found] at wanted
    exact ⟨object, name, property, kind, schema, definition,
      Store.kind?_eq_some_iff.2 ⟨properties, found⟩, known, listed, wanted,
      aimed⟩
  · intro listing
    obtain ⟨object, name, property, kind, schema, definition, shape, known,
      listed, wanted, aimed⟩ := listing
    obtain ⟨properties, found⟩ := Store.kind?_eq_some_iff.1 shape
    rw [Store.content?_of_shape found] at wanted
    exact ⟨object, name, property, kind, properties, schema, definition, found,
      known, listed, wanted, aimed⟩

/-- Which properties are drawn depends on the kinds of the shapes and on which
properties they have and have marked as free. -/
theorem targets_congr {left right : Store Float}
    (kinds : ∀ object name, left.kind? object name = right.kind? object name)
    (marks : ∀ object name property,
      (left.content? (.property object name property)).map Content.isVary =
        (right.content? (.property object name property)).map
          Content.isVary) :
    targets left catalog = targets right catalog := by
  apply Path.eq_of_increasing Prod.fst (targets_increasing left catalog)
    (targets_increasing right catalog)
  intro target
  have same (definition : PropertyDef) (object name property : String) :
      wants definition property
          (left.content? (.property object name property)) =
        wants definition property
          (right.content? (.property object name property)) :=
    wants_congr (marks object name property)
  simp only [mem_targets_iff_content, kinds, same]

/-- Sampling the fields has no influence on which properties are drawn. -/
theorem targets_fields (store : Store Float) (catalog : Catalog)
    (canvas : Canvas) (generator : Generator) :
    targets ((fields store (store.varyingPaths catalog) canvas).run
      generator).1.store catalog = targets store catalog := by
  apply targets_congr
  · exact kind?_fields store _ canvas generator
  · intro object name property
    rw [content?_fields_property]

/-! ## Writes at distinct paths -/

theorem content?_write_of_mem {entries : List (Path × Value Float)}
    (accepts : ∀ entry ∈ entries, store.Accepts entry.1)
    (distinct : (entries.map Prod.fst).Nodup) {path : Path}
    {value : Value Float} (member : (path, value) ∈ entries) :
    (write store entries).1.content? path = some (.concrete value) := by
  rcases (writtenAll_write accepts).contents path with
    ⟨other, listed, content⟩ | ⟨untouched, -⟩
  · rw [content, Table.eq_of_nodup_keys distinct listed member]
  · exact absurd rfl (untouched _ member)

theorem always_aim_drawField (canvas : Canvas) (path : Path) :
    (drawField canvas path).Always fun drawn => drawn.1 = id path :=
  fun generator => (always_drawField canvas path generator).1

theorem always_aim_drawProperty (target : Path × Sampler) :
    (drawProperty target).Always fun drawn => drawn.1 = target.1 :=
  fun generator => (always_drawProperty target generator).1

theorem nodup_of_increasing {α : Type} {aim : α → Path} {items : List α}
    (increasing : items.Pairwise fun earlier later =>
      (aim earlier).Precedes (aim later)) : (items.map aim).Nodup := by
  rw [List.Nodup, List.pairwise_map]
  apply increasing.imp
  intro earlier later precedes same
  rw [same] at precedes
  exact Path.not_precedes_both precedes precedes

/-! ## The value of each draw -/

/-- A share of the range that a canvas has for coordinates. -/
def scaled (canvas : Canvas) (share : Float) : Float :=
  canvas.coordinateRange.1 +
    (canvas.coordinateRange.2 - canvas.coordinateRange.1) * share

theorem drawField_eq (canvas : Canvas) (path : Path) :
    drawField canvas path = do
      return (path, .float (← Random.between canvas.coordinateRange.1
        canvas.coordinateRange.2)) := by
  rfl

theorem result_drawField (canvas : Canvas) (path : Path)
    (generator : Generator) :
    ((drawField canvas path).run generator).1 =
      (path, .float (scaled canvas (Random.unit.run generator).1)) := by
  rw [drawField_eq, Random.result_bind_pure, Random.between,
    Random.result_bind_pure, scaled]

theorem generator_drawField (canvas : Canvas) (path : Path)
    (generator : Generator) :
    ((drawField canvas path).run generator).2 =
      (Random.unit.run generator).2 := by
  rw [drawField_eq, Random.generator_bind_pure, Random.between,
    Random.generator_bind_pure]

theorem after_drawField (canvas : Canvas) (paths : List Path)
    (generator : Generator) :
    Random.after (drawField canvas) paths generator =
      Random.skip paths.length generator := by
  induction paths generalizing generator with
  | nil => rfl
  | cons path paths induction =>
      rw [Random.after, List.foldl_cons, generator_drawField,
        List.length_cons, Random.skip, Function.iterate_succ_apply]
      exact induction (Random.unit.run generator).2

theorem result_drawProperty (target : Path × Sampler)
    (generator : Generator) :
    ((drawProperty target).run generator).1 =
      (target.1, (target.2.sample.run generator).1) := by
  rw [drawProperty, Random.result_bind_pure]

theorem after_drawProperty (targets : List (Path × Sampler))
    (generator : Generator) :
    Random.after drawProperty targets generator =
      Random.after (·.2.sample) targets generator := by
  induction targets generalizing generator with
  | nil => rfl
  | cons target targets induction =>
      rw [Random.after, Random.after, List.foldl_cons, List.foldl_cons,
        drawProperty, Random.generator_bind_pure]
      exact induction (target.2.sample.run generator).2

theorem content?_fields_at (canvas : Canvas) (generator : Generator)
    {index : Nat} {path : Path}
    (listed : (freeFields store catalog)[index]? = some path) :
    ((fields store (store.varyingPaths catalog) canvas).run
      generator).1.store.content? path = some (.concrete (.float
        (scaled canvas (Random.unit.run (Random.skip index generator)).1))) := by
  have keys := Random.map_fst_mapM (always_aim_drawField canvas)
    (freeFields store catalog) generator
  rw [store_fields]
  apply content?_write_of_mem
  · intro entry member
    have isFree : entry.1 ∈ freeFields store catalog := by
      have aimed := List.mem_map_of_mem (f := Prod.fst) member
      rw [← freeFields, keys, List.map_id] at aimed
      exact aimed
    obtain ⟨object, name, same, found⟩ := varies_of_mem_fields isFree
    rw [same]
    exact ⟨_, found, rfl⟩
  · rw [← freeFields, keys]
    exact nodup_of_increasing (freeFields_increasing store catalog)
  · obtain ⟨within, -⟩ := List.getElem?_eq_some_iff.1 listed
    apply List.mem_of_getElem? (i := index)
    rw [← freeFields, Random.getElem?_mapM, listed, after_drawField,
      List.length_take_of_le (Nat.le_of_lt within), Option.map_some,
      result_drawField]

theorem content?_fields_of_not_free (canvas : Canvas) (generator : Generator)
    {path : Path} (held : path ∉ freeFields store catalog) :
    ((fields store (store.varyingPaths catalog) canvas).run
      generator).1.store.content? path = store.content? path := by
  obtain ⟨drawn, drawnFrom, -, written⟩ :=
    writtenAll_fields store catalog canvas generator
  rcases written.contents path with ⟨value, member, -⟩ | ⟨-, kept⟩
  · obtain ⟨object, name, same, found, -⟩ := drawnFrom _ member
    dsimp only at same
    subst same
    have listed : .field object name ∈ freeFields store catalog :=
      List.mem_filter.2 ⟨Store.field_mem_varyingPaths_iff.2 found, rfl⟩
    exact absurd listed held
  · exact kept

theorem generator_fields (store : Store Float) (catalog : Catalog)
    (canvas : Canvas) (generator : Generator) :
    ((fields store (store.varyingPaths catalog) canvas).run generator).2 =
      Random.skip (freeFields store catalog).length generator := by
  rw [← after_drawField canvas, ← Random.generator_mapM, fields]
  apply Random.generator_bind
  intro drawn reached
  rfl

theorem content?_shapes_at (generator : Generator) {index : Nat} {path : Path}
    {sampler : Sampler}
    (listed : (targets store catalog)[index]? = some (path, sampler)) :
    ((shapes store catalog).run generator).1.store.content? path =
      some (.concrete (sampler.sample.run (Random.after (·.2.sample)
        ((targets store catalog).take index) generator)).1) := by
  have keys := Random.map_fst_mapM always_aim_drawProperty
    (targets store catalog) generator
  rw [store_shapes]
  apply content?_write_of_mem
  · intro entry member
    have aimed := List.mem_map_of_mem (f := Prod.fst) member
    rw [keys] at aimed
    obtain ⟨target, isTarget, same⟩ := List.mem_map.1 aimed
    obtain ⟨object, name, property, kind, properties, schema, definition,
      found, -, -, -, rfl⟩ := mem_targets_iff.1 isTarget
    rw [← same]
    exact ⟨_, found, rfl⟩
  · rw [keys]
    exact nodup_of_increasing (targets_increasing store catalog)
  · apply List.mem_of_getElem? (i := index)
    rw [Random.getElem?_mapM, listed, Option.map_some, result_drawProperty,
      after_drawProperty]

theorem generator_shapes (store : Store Float) (catalog : Catalog)
    (generator : Generator) :
    ((shapes store catalog).run generator).2 =
      Random.after (·.2.sample) (targets store catalog) generator := by
  rw [← after_drawProperty, ← Random.generator_mapM, shapes]
  apply Random.generator_bind
  intro drawn reached
  rfl

end Sampling

/-! ## All draws -/

/-- What comes of sampling a store when every free field is given the share that
is its turn, and every target then a value of its sampler. -/
structure DrawsInOrder (store : Store Float) (catalog : Catalog)
    (canvas : Canvas) (generator : Generator)
    (outcome : Sampled × Generator) : Prop where
  fieldOrder : (Sampling.freeFields store catalog).Pairwise Path.Precedes
  propertyOrder : (Sampling.targets store catalog).Pairwise
    fun earlier later => earlier.1.Precedes later.1
  fields : ∀ (index : Nat) path,
    (Sampling.freeFields store catalog)[index]? = some path →
    outcome.1.store.content? path = some (.concrete (.float
      (Sampling.scaled canvas
        (Random.unit.run (Random.skip index generator)).1)))
  properties : ∀ (index : Nat) path sampler,
    (Sampling.targets store catalog)[index]? = some (path, sampler) →
    outcome.1.store.content? path = some (.concrete
      (sampler.sample.run (Random.after (·.2.sample)
        ((Sampling.targets store catalog).take index)
        (Random.skip (Sampling.freeFields store catalog).length
          generator))).1)
  others : ∀ path, path ∉ Sampling.freeFields store catalog →
    path ∉ (Sampling.targets store catalog).map Prod.fst →
    outcome.1.store.content? path = store.content? path
  generator : outcome.2 = Random.after (·.2.sample)
    (Sampling.targets store catalog)
    (Random.skip (Sampling.freeFields store catalog).length generator)

/-- What sampling draws was free and is concrete afterwards, so the paths that it
draws are the ones that change. -/
theorem DrawsInOrder.changed_iff {store : Store Float} {catalog : Catalog}
    {canvas : Canvas} {generator : Generator} {outcome : Sampled × Generator}
    (drawn : DrawsInOrder store catalog canvas generator outcome)
    (path : Path) :
    outcome.1.store.content? path ≠ store.content? path ↔
      path ∈ Sampling.freeFields store catalog ∨
        path ∈ (Sampling.targets store catalog).map Prod.fst := by
  constructor
  · intro changed
    by_contra neither
    rw [not_or] at neither
    exact changed (drawn.others path neither.1 neither.2)
  · intro listed
    have concrete : ∃ value,
        outcome.1.store.content? path = some (.concrete value) := by
      cases listed with
      | inl isField =>
          obtain ⟨index, there⟩ := List.getElem?_of_mem isField
          exact ⟨_, drawn.fields index path there⟩
      | inr isTarget =>
          obtain ⟨⟨_, sampler⟩, member, rfl⟩ := List.mem_map.1 isTarget
          obtain ⟨index, there⟩ := List.getElem?_of_mem member
          exact ⟨_, drawn.properties index _ sampler there⟩
    have free : store.content? path = none ∨
        store.content? path = some (.symbolic .vary) := by
      cases listed with
      | inl isField => exact .inr (Sampling.mem_freeFields_iff.1 isField).2
      | inr isTarget =>
          have draws := Sampling.draws_iff.2 (List.mem_map.1 isTarget)
          exact draws.free
    intro same
    obtain ⟨value, holds⟩ := concrete
    rw [← same, holds] at free
    cases free with
    | inl absent => cases absent
    | inr marked => cases marked

namespace Problem

theorem store_sample_eq (store : Store Float) (catalog : Catalog)
    (config : Config) (paths : List Path) (generator : Generator) :
    ((sample store catalog config paths).run generator).1.store =
      ((Sampling.shapes ((Sampling.fields store paths config.canvas).run
        generator).1.store catalog).run ((Sampling.fields store paths
          config.canvas).run generator).2).1.store := by
  rfl

theorem generator_sample (store : Store Float) (catalog : Catalog)
    (config : Config) (paths : List Path) (generator : Generator) :
    ((sample store catalog config paths).run generator).2 =
      ((Sampling.shapes ((Sampling.fields store paths config.canvas).run
        generator).1.store catalog).run ((Sampling.fields store paths
          config.canvas).run generator).2).2 := by
  rfl

theorem drawsInOrder_sample (store : Store Float) (catalog : Catalog)
    (config : Config) (generator : Generator) :
    DrawsInOrder store catalog config.canvas generator
      ((sample store catalog config (store.varyingPaths catalog)).run
        generator) := by
  have reached := Sampling.generator_fields store catalog config.canvas
    generator
  have sameTargets := Sampling.targets_fields store catalog config.canvas
    generator
  constructor
  · exact Sampling.freeFields_increasing store catalog
  · exact Sampling.targets_increasing store catalog
  · intro index path listed
    have isFree := Sampling.mem_freeFields_iff.1 (List.mem_of_getElem? listed)
    cases path with
    | property object name property => cases isFree.1
    | field object name =>
        rw [store_sample_eq, Sampling.content?_shapes_field]
        exact Sampling.content?_fields_at config.canvas generator listed
  · intro index path sampler listed
    rw [← sameTargets] at listed
    rw [store_sample_eq, Sampling.content?_shapes_at _ listed, sameTargets,
      reached]
  · intro path notFree spared
    have kept := Sampling.content?_fields_of_not_free config.canvas generator
      notFree
    rw [store_sample_eq, Sampling.content?_shapes_of_not_draws]
    · exact kept
    · intro draws
      have before := draws.congr
        (Sampling.kind?_fields store _ _ generator) kept
      exact spared (List.mem_map.2 (Sampling.draws_iff.1 before))
  · rw [generator_sample, Sampling.generator_shapes, sameTargets, reached]

end Problem

end DiagramEnergy
