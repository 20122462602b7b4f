import DiagramEnergy.Proofs.Evaluation.Resting
import DiagramEnergy.Proofs.Problem.Calls
import DiagramEnergy.Standard.Catalog

/-!
# Plain diagrams

A diagram is plain if it makes no calls of its own and its shapes have, for
properties of their kind, markers and concrete values only.  Main statement:
with the standard functions and kinds, a plain diagram in which something varies
always becomes a problem, and its energy has a value for all varying values.
-/

namespace DiagramEnergy

variable {σ N : Type}

/-- What a plain diagram may have for a property: the marker of a free slot, or
a value, which is a float where the optimizer might want one. -/
def PropertyDef.Allows (definition : PropertyDef) (content : Content Float) :
    Prop :=
  content = .symbolic .vary ∨ ∃ value, content = .concrete value ∧
    (definition.isNumeric = true → definition.pending = false →
      ∃ number, value = .float number)

/-- A store without calls, and with shapes of known kinds that have only
properties of their kind, with contents that are allowed. -/
structure Store.Plain (store : Store Float) (catalog : Catalog) : Prop where
  scalars : ∀ object name content,
    store.slot? object name = some (.scalar content) →
    ∀ function arguments,
      content ≠ .symbolic (.objective function arguments) ∧
      content ≠ .symbolic (.constraint function arguments)
  shapes : ∀ object name kind properties,
    store.slot? object name = some (.shape kind properties) →
    ∃ schema, catalog.get? kind = some schema ∧
      ∀ property content, properties.get? property = some content →
        ∃ definition, schema.properties.get? property = some definition ∧
          definition.Allows content

/-- No kind has a property with the reserved name. -/
def Catalog.IsOrdinary (catalog : Catalog) : Prop :=
  ∀ kind schema, catalog.get? kind = some schema →
    schema.properties.get? reservedProperty = none

theorem Catalog.IsOrdinary.ne_reserved {catalog : Catalog}
    (ordinary : catalog.IsOrdinary) {kind property : String} {schema : ShapeDef}
    {definition : PropertyDef} (known : catalog.get? kind = some schema)
    (listed : schema.properties.get? property = some definition) :
    property ≠ reservedProperty := by
  rintro rfl
  rw [ordinary kind schema known] at listed
  cases listed

/-- What sampling does not want is concrete already. -/
theorem PropertyDef.Allows.concrete {definition : PropertyDef}
    {content : Content Float} (allows : definition.Allows content)
    {property : String} (named : property ≠ reservedProperty)
    (unwanted : Sampling.wants definition property (some content) = false) :
    ∃ value, content = .concrete value ∧
      (definition.isNumeric = true → definition.pending = false →
        ∃ number, value = .float number) := by
  rcases allows with rfl | concrete
  · simp [Sampling.wants, named, Content.isVary] at unwanted
  · exact concrete

/-- A store whose shapes have nothing but concrete properties of their kinds,
among them a float for every property that the optimizer might control. -/
def Store.IsFurnished (store : Store Float) (catalog : Catalog) : Prop :=
  ∀ object name kind properties,
    store.slot? object name = some (.shape kind properties) →
    ∃ schema, catalog.get? kind = some schema ∧
      (∀ property content, properties.get? property = some content →
        (∃ value, content = .concrete value) ∧
        (schema.properties.get? property).isSome) ∧
      ∀ property definition,
        schema.properties.get? property = some definition →
        definition.isNumeric = true → definition.pending = false →
        ∃ number, properties.get? property = some (.concrete (.float number))

namespace Problem

/-! ## Sampling a plain diagram -/

section Sampled

variable {store sampled : Store Float} {catalog : Catalog} {config : Config}
  {generator : Generator} (drawn : ((sample store catalog config
    (store.varyingPaths catalog)).run generator).1.store = sampled)
include drawn

/-- What sampling does to one property of a shape. -/
theorem content?_sample_property (valid : catalog.validate = .ok ())
    {object name kind : String} {properties : Table String (Content Float)}
    {schema : ShapeDef}
    (found : store.slot? object name = some (.shape kind properties))
    (known : catalog.get? kind = some schema) (property : String) :
    (∃ definition value, schema.properties.get? property = some definition ∧
      value.type = definition.type ∧
      sampled.content? (.property object name property) =
        some (.concrete value)) ∨
    ((∀ definition, schema.properties.get? property = some definition →
        Sampling.wants definition property (properties.get? property) = false) ∧
      sampled.content? (.property object name property) =
        properties.get? property) := by
  obtain ⟨reached, same⟩ := store_sample store catalog config
    (store.varyingPaths catalog) generator
  have unchanged := slot?_fields_of_shape catalog config generator found
  rw [← drawn, same]
  by_cases wanted : ∃ definition,
      schema.properties.get? property = some definition ∧
      Sampling.wants definition property (properties.get? property) = true
  · obtain ⟨definition, listed, wanted⟩ := wanted
    obtain ⟨value, typed, content⟩ := Sampling.content?_shapes_of_target
      valid unchanged known listed wanted
    exact .inl ⟨definition, value, listed, typed, content⟩
  · refine .inr ⟨?_, ?_⟩
    · intro definition listed
      rw [← Bool.not_eq_true]
      exact fun asked => wanted ⟨definition, listed, asked⟩
    · have spared := mt
        (Sampling.draws_iff_of_shape unchanged known property).1 wanted
      rw [Sampling.content?_shapes_of_not_draws spared,
        Store.content?_of_shape unchanged]

theorem isFurnished_sample (valid : catalog.validate = .ok ())
    (ordinary : catalog.IsOrdinary) (plain : store.Plain catalog) :
    sampled.IsFurnished catalog := by
  intro object name kind properties after
  have kinds : sampled.kind? object name = store.kind? object name := by
    rw [← drawn, kind?_sample]
  rw [Store.kind?_eq_some_iff.2 ⟨properties, after⟩] at kinds
  obtain ⟨before, found⟩ := Store.kind?_eq_some_iff.1 kinds.symm
  obtain ⟨schema, known, allowed⟩ := plain.shapes object name kind before found
  have contents (property : String) :
      sampled.content? (.property object name property) =
        properties.get? property := Store.content?_of_shape after property
  have sampling := content?_sample_property drawn valid found known
  simp only [contents] at sampling
  refine ⟨schema, known, ?_, ?_⟩
  · intro property content held
    rcases sampling property with
      ⟨definition, value, listed, -, content'⟩ | ⟨unwanted, content'⟩
    · rw [held] at content'
      cases content'
      exact ⟨⟨value, rfl⟩, by simp [listed]⟩
    · rw [held] at content'
      obtain ⟨definition, listed, allows⟩ :=
        allowed property content content'.symm
      have skipped := unwanted definition listed
      rw [← content'] at skipped
      obtain ⟨value, concrete, -⟩ :=
        allows.concrete (ordinary.ne_reserved known listed) skipped
      exact ⟨⟨value, concrete⟩, by simp [listed]⟩
  · intro property definition listed numeric provided
    rcases sampling property with
      ⟨definition', value, listed', typed, content⟩ | ⟨unwanted, content⟩
    · rw [listed] at listed'
      cases listed'
      have isFloat : definition.type = .float := by
        simpa [PropertyDef.isNumeric] using numeric
      obtain ⟨number, rfl⟩ := float_of_type (typed.trans isFloat)
      exact ⟨number, content⟩
    · have named := ordinary.ne_reserved known listed
      have skipped := unwanted definition listed
      cases held : before.get? property with
      | none => simp [Sampling.wants, held, named, provided] at skipped
      | some old =>
          obtain ⟨definition', listed', allows⟩ := allowed property old held
          rw [listed] at listed'
          cases listed'
          rw [held] at skipped
          obtain ⟨value, rfl, isFloat⟩ := allows.concrete named skipped
          obtain ⟨number, rfl⟩ := isFloat numeric provided
          exact ⟨number, content.trans held⟩

end Sampled

end Problem

/-! ## Shapes of a furnished store -/

/-- The value of a property: its override, or what the shape has. -/
def Store.shownValue (properties : Table String (Content Float))
    (overrides : Overrides Float) (object name property : String) :
    Value Float :=
  match overrides.get? (.property object name property),
      properties.get? property with
  | some number, _ => .float number
  | none, some (.concrete value) => value
  | none, _ => .bool false

section Furnished

variable {store : Store Float} {catalog : Catalog}
  {overrides : Overrides Float} {object name kind : String}
  {properties : Table String (Content Float)}

theorem Store.IsFurnished.atHand (furnished : store.IsFurnished catalog)
    (found : store.slot? object name = some (.shape kind properties))
    (free : overrides.get? (.field object name) = none) :
    store.AtHand overrides object name kind properties.keys
      (shownValue properties overrides object name) := by
  constructor
  · exact demand_assemble_iff.2 ⟨free, rfl, properties, found, rfl⟩
  · intro property listed
    apply demand_ready_iff.2
    cases overridden : overrides.get? (.property object name property) with
    | some number =>
        exact .inl ⟨number, rfl, by simp [shownValue, overridden]⟩
    | none =>
        obtain ⟨content, held⟩ :=
          Option.isSome_iff_exists.1 (Table.mem_keys_iff.1 listed)
        obtain ⟨_, -, concrete, -⟩ := furnished object name kind properties found
        obtain ⟨⟨value, rfl⟩, -⟩ := concrete property content held
        refine .inr ⟨rfl, ?_⟩
        rw [content?_of_shape found]
        simp [held, shownValue, overridden]

/-- A shape of a kind with this property has it as a float. -/
def ShapeDef.IsMeasured (schema : ShapeDef) (property : String) : Prop :=
  ∃ definition, schema.properties.get? property = some definition ∧
    definition.isNumeric = true ∧ definition.pending = false

/-- The kind has a radius, or no radius but a width and a height. -/
def ShapeDef.IsSized (schema : ShapeDef) : Prop :=
  schema.IsMeasured "r" ∨ (schema.properties.get? "r" = none ∧
    schema.IsMeasured "w" ∧ schema.IsMeasured "h")

variable (overrides) (furnished : store.IsFurnished catalog)
  (found : store.slot? object name = some (.shape kind properties))
  {schema : ShapeDef} (known : catalog.get? kind = some schema)
include furnished found known

theorem Store.IsFurnished.get?_held_of_measured {property : String}
    (measured : schema.IsMeasured property) (ordinary : property ≠ "name") :
    ∃ number, (Shape.held object name kind properties.keys
      (shownValue properties overrides object name)).get? property =
        some (.float number) := by
  obtain ⟨_, known', -, floats⟩ := furnished object name kind properties found
  rw [known] at known'
  cases known'
  obtain ⟨definition, listed, numeric, provided⟩ := measured
  obtain ⟨number, held⟩ := floats property definition listed numeric provided
  have member : property ∈ properties.keys :=
    Table.mem_keys_iff.2 (by simp [held])
  rw [Shape.get?_held properties.keys_nodup ordinary, if_pos member]
  cases overridden : overrides.get? (.property object name property) with
  | some number => exact ⟨number, by simp [shownValue, overridden]⟩
  | none => exact ⟨number, by simp [shownValue, overridden, held]⟩

theorem Store.IsFurnished.get?_held_of_unlisted {property : String}
    (unlisted : schema.properties.get? property = none)
    (ordinary : property ≠ "name") :
    (Shape.held object name kind properties.keys
      (shownValue properties overrides object name)).get? property = none := by
  obtain ⟨_, known', concrete, -⟩ := furnished object name kind properties found
  rw [known] at known'
  cases known'
  rw [Shape.get?_held properties.keys_nodup ordinary, if_neg]
  intro member
  obtain ⟨content, held⟩ :=
    Option.isSome_iff_exists.1 (Table.mem_keys_iff.1 member)
  have listed := (concrete property content held).2
  rw [unlisted] at listed
  cases listed

/-- A shape of a sized kind has a size, whatever is overridden. -/
theorem Store.IsFurnished.size_held (sized : schema.IsSized) :
    ∃ sides, (Shape.held object name kind properties.keys
      (shownValue properties overrides object name)).size = .ok sides := by
  have side {property : String} (measured : schema.IsMeasured property)
      (ordinary : property ≠ "name") :
      ∃ number, (Shape.held object name kind properties.keys
        (shownValue properties overrides object name)).float property =
          .ok number := by
    obtain ⟨number, shown⟩ := furnished.get?_held_of_measured overrides found
      known measured ordinary
    exact ⟨number, by simp only [Shape.float, shown]⟩
  unfold Shape.size
  rcases sized with radius | ⟨unlisted, width, height⟩
  · obtain ⟨number, shown⟩ := furnished.get?_held_of_measured overrides found
      known radius (by decide)
    have has : (Shape.held object name kind properties.keys
        (shownValue properties overrides object name)).has "r" = true := by
      have member := congrArg Option.isSome shown
      exact member
    obtain ⟨radius, read⟩ := side radius (by decide)
    rw [if_pos has, read]
    exact ⟨_, rfl⟩
  · have missing := furnished.get?_held_of_unlisted overrides found known
      unlisted (by decide)
    have hasNot : ¬ (Shape.held object name kind properties.keys
        (shownValue properties overrides object name)).has "r" = true := by
      have member := congrArg Option.isSome missing
      intro has
      have both := has.symm.trans member
      cases both
    obtain ⟨width, readWidth⟩ := side width (by decide)
    obtain ⟨height, readHeight⟩ := side height (by decide)
    rw [if_neg hasNot, readWidth, readHeight]
    exact ⟨_, rfl⟩

end Furnished

/-! ## The standard kinds -/

namespace Standard

/-- Of the standard kinds, none has a property with the reserved name, none
brings an objective along, and those that bring constraints along have a size. -/
theorem of_get?_catalog {canvas : Canvas} {kind : String} {schema : ShapeDef}
    (known : (catalog canvas).get? kind = some schema) :
    schema.properties.get? reservedProperty = none ∧
    schema.defaultObjectives = [] ∧
    (schema.defaultConstraints = [] ∨
      schema.defaultConstraints = ["minSize", "maxSize"] ∧ schema.IsSized) := by
  have listed := Table.mem_of_get?_ofList known
  simp only [List.mem_cons, Prod.mk.injEq, List.not_mem_nil, or_false]
    at listed
  rcases listed with ⟨-, rfl⟩ | ⟨-, rfl⟩ | ⟨-, rfl⟩ | ⟨-, rfl⟩
  · exact ⟨Table.get?_ofList_eq_none (by simp [reservedProperty]), rfl,
      .inr ⟨rfl, .inl ⟨uniform 20 100,
        Table.get?_ofList_of_mem (by simp) (by simp), rfl, rfl⟩⟩⟩
  · exact ⟨Table.get?_ofList_eq_none (by simp [reservedProperty]), rfl,
      .inr ⟨rfl, .inr ⟨Table.get?_ofList_eq_none (by simp),
        ⟨uniform 20 200, Table.get?_ofList_of_mem (by simp) (by simp), rfl, rfl⟩,
        ⟨uniform 20 200, Table.get?_ofList_of_mem (by simp) (by simp), rfl,
          rfl⟩⟩⟩⟩
  · exact ⟨Table.get?_ofList_eq_none (by simp [reservedProperty]), rfl, .inl rfl⟩
  · exact ⟨Table.get?_ofList_eq_none (by simp [reservedProperty]), rfl, .inl rfl⟩

theorem isOrdinary_catalog (canvas : Canvas) : (catalog canvas).IsOrdinary :=
  fun _ _ known => (of_get?_catalog known).1

/-- The default constraints score every shape that has a size. -/
theorem call_of_size {shape : Shape Float} {sides : Float × Float}
    (sized : shape.size = .ok sides) {name : String}
    (listed : name ∈ ["minSize", "maxSize"]) :
    ∃ score, (constraints : ScoreTable Float).call name [.shaped shape] =
      .ok score := by
  obtain ⟨smallest, largest⟩ := sides
  simp only [List.mem_cons, List.not_mem_nil, or_false] at listed
  rcases listed with rfl | rfl
  · refine ⟨penalty (minSide - smallest), ?_⟩
    have registered : (constraints : ScoreTable Float).functions.get? "minSize" =
        some ([.shape], minSize) := rfl
    have scored : minSize [.shaped shape] =
        .ok (penalty (minSide - smallest)) := by
      change (shape.size >>= fun sides =>
        (.ok (penalty (minSide - sides.1)) : Except Error Float)) = _
      rw [sized]
      rfl
    rw [ScoreTable.call, registered]
    exact scored
  · refine ⟨penalty (largest - maxSide), ?_⟩
    have registered : (constraints : ScoreTable Float).functions.get? "maxSize" =
        some ([.shape], maxSize) := rfl
    have scored : maxSize [.shaped shape] =
        .ok (penalty (largest - maxSide)) := by
      change (shape.size >>= fun sides =>
        (.ok (penalty (sides.2 - maxSide)) : Except Error Float)) = _
      rw [sized]
      rfl
    rw [ScoreTable.call, registered]
    exact scored

end Standard

/-! ## The energy of a furnished store -/

/-- Calls that are scored one by one are scored together. -/
theorem Energy.score_succeeds [Scalar N] {registries : Registries σ N}
    {calls : List (EvaluatedCall N)}
    (each : ∀ call ∈ calls, ∃ score,
      (registries.forRole call.role).call call.name call.arguments = .ok score)
    (total : N) : ∃ sum, score registries total calls = .ok sum := by
  induction calls generalizing total with
  | nil => exact ⟨total, rfl⟩
  | cons call calls induction =>
      obtain ⟨scored, first⟩ := each call (by simp)
      obtain ⟨sum, rest⟩ :=
        induction (fun other member => each other (by simp [member]))
          (total + scored)
      exact ⟨sum, Except.bind_eq_ok.2 ⟨scored, first, rest⟩⟩

namespace Problem

/-- The calls that come with standard kinds, on shapes that have a size. -/
theorem rests_mapM_descendCall {store : Store Float} {canvas : Canvas}
    (furnished : store.IsFurnished (Standard.catalog canvas))
    {evaluator : Evaluator σ Float} (enough : 4 ≤ evaluator.limit)
    {overrides : Overrides Float}
    (free : ∀ object name kind properties,
      store.slot? object name = some (.shape kind properties) →
        overrides.get? (.field object name) = none)
    (role : Role) (world : σ) :
    ∃ evaluated : List (EvaluatedCall Float),
      (∀ call ∈ evaluated, ∃ score, ((Standard.registries :
        Registries σ Float).forRole call.role).call call.name call.arguments =
          .ok score) ∧
      Rests ⟨store, world⟩
        ((store.broughtAs role (Standard.catalog canvas)).mapM
          (evaluator.descendCall overrides)) evaluated := by
  apply Rests.exists_mapM
  intro call member
  obtain ⟨object, name, kind, properties, schema, function, found, known,
    listed, rfl⟩ := Store.mem_broughtAs_iff.1 member
  obtain ⟨-, noObjectives, constraints⟩ := Standard.of_get?_catalog known
  have held := furnished.atHand found (free object name kind properties found)
  refine ⟨_, ?_, Evaluator.rests_descendCall_held enough held rfl⟩
  cases role with
  | objective =>
      rw [ShapeDef.defaults, noObjectives] at listed
      cases listed
  | constraint =>
      rw [ShapeDef.defaults] at listed
      rcases constraints with none | ⟨both, sized⟩
      · rw [none] at listed
        cases listed
      · rw [both] at listed
        obtain ⟨sides, size⟩ := furnished.size_held overrides found known sized
        exact Standard.call_of_size size listed

/-- Furnished shapes are evaluated without any change. -/
theorem forget_evalShapes_furnished {store : Store Float} {catalog : Catalog}
    (furnished : store.IsFurnished catalog) {evaluator : Evaluator σ Float}
    (enough : 2 ≤ evaluator.limit) (world : σ) :
    ∃ shapes, Evaluation.forget (evaluator.evalShapes .empty store.shapePaths
      ⟨store, world, []⟩) = (.ok shapes, ⟨store, world⟩) := by
  have each : ∀ path ∈ store.shapePaths, ∃ shape : Shape Float, True ∧
      Rests ⟨store, world⟩ (evaluator.descendShape .empty path) shape := by
    intro path member
    obtain ⟨object, name, kind, properties, found, rfl⟩ :=
      Store.mem_shapePaths_iff.1 member
    exact ⟨_, trivial, Evaluator.rests_descendShape_held enough
      (furnished.atHand found rfl)⟩
  obtain ⟨shapes, -, rests⟩ := Rests.exists_mapM each
  exact ⟨shapes, (Evaluator.forget_evalShapes _ _ _ _).trans rests⟩

/-- An energy of default calls over a furnished store has a value for any values
of its varying paths. -/
theorem evaluate_furnished {energy : Energy σ Float} {canvas : Canvas}
    (furnished : energy.store.IsFurnished (Standard.catalog canvas))
    (registered : energy.registries = Standard.registries)
    (objectives : energy.objectives =
      energy.store.broughtAs .objective (Standard.catalog canvas))
    (constraints : energy.constraints =
      energy.store.broughtAs .constraint (Standard.catalog canvas))
    (enough : 4 ≤ energy.recursionLimit)
    (scalars : ∀ object name, .field object name ∈ energy.varyingPaths →
      energy.store.kind? object name = none)
    (penaltyWeight : Float) {values : List Float}
    (sameLength : energy.varyingPaths.length = values.length)
    (run : RunState σ) :
    ∃ total, (energy.evaluate penaltyWeight values).outcome run = .ok total := by
  have paired := Overrides.ofParts_eq_ok_iff.2 ⟨sameLength, rfl⟩
  have free (object name kind : String)
      (properties : Table String (Content Float))
      (found : energy.store.slot? object name = some (.shape kind properties)) :
      Overrides.get? ⟨.ofList (energy.varyingPaths.zip values)⟩
        (.field object name) = none := by
    cases overridden : Overrides.get?
        ⟨.ofList (energy.varyingPaths.zip values)⟩ (.field object name) with
    | none => rfl
    | some number =>
        have member := Overrides.mem_zip_of_get? paired overridden
        have none := scalars object name (List.of_mem_zip member).1
        rw [Store.kind?_eq_some_iff.2 ⟨properties, found⟩] at none
        cases none
  have deep : 4 ≤ energy.ownEvaluator.limit :=
    Nat.le_min.2 ⟨enough, by decide⟩
  have calls := rests_mapM_descendCall furnished deep free
  obtain ⟨first, firstScored, firstRests⟩ := calls .objective run.world
  obtain ⟨second, secondScored, secondRests⟩ := calls .constraint run.world
  rw [← objectives] at firstRests
  rw [← constraints] at secondRests
  have descended : Rests ⟨energy.store, run.world⟩
      (energy.descendCalls ⟨.ofList (energy.varyingPaths.zip values)⟩)
      (first, second) :=
    firstRests.bind (secondRests.bind (.pure (first, second)))
  rw [← registered] at firstScored secondScored
  obtain ⟨objective, scoredFirst⟩ := Energy.score_succeeds firstScored Scalar.zero
  obtain ⟨constraint, scoredSecond⟩ :=
    Energy.score_succeeds secondScored Scalar.zero
  have summed : energy.sums values run.world = .ok (objective, constraint) :=
    Except.bind_eq_ok.2 ⟨_, paired, Except.bind_eq_ok.2
      ⟨(first, second), congrArg Prod.fst descended, Except.bind_eq_ok.2
        ⟨objective, scoredFirst, Except.bind_eq_ok.2
          ⟨constraint, scoredSecond, rfl⟩⟩⟩⟩
  rw [Energy.outcome_evaluate, summed]
  exact ⟨_, rfl⟩

/-! ## Plain diagrams -/

section Plain

variable {store : Store Float} {catalog : Catalog}

theorem checkKinds_of_plain (plain : store.Plain catalog) :
    checkKinds store catalog = .ok () := by
  have known : store.unknownShapes catalog = [] := by
    rw [Store.unknownShapes, List.filterMap_eq_nil_iff]
    rintro ⟨object, name, slot⟩ member
    cases slot with
    | scalar content => rfl
    | shape kind properties =>
        obtain ⟨schema, known, -⟩ := plain.shapes object name kind properties
          (Store.mem_slots_iff.1 member)
        have contained : catalog.contains kind = true :=
          congrArg Option.isSome known
        simp [contained]
  rw [checkKinds, known]

theorem declaredAs_of_plain (plain : store.Plain catalog) (role : Role) :
    store.declaredAs role = [] := by
  rw [Store.declaredAs, List.filterMap_eq_nil_iff]
  rintro ⟨object, name, slot⟩ member
  cases slot with
  | shape kind properties => rfl
  | scalar content =>
      have never := plain.scalars object name content
        (Store.mem_slots_iff.1 member)
      cases content with
      | concrete value => rfl
      | symbolic expr =>
          cases expr with
          | objective function arguments =>
              exact absurd rfl (never function arguments).1
          | constraint function arguments =>
              exact absurd rfl (never function arguments).2
          | _ => rfl

end Plain

theorem checkCall_of_mem_broughtAs {store : Store Float} {canvas : Canvas}
    {role : Role} {call : Call}
    (member : call ∈ store.broughtAs role (Standard.catalog canvas)) :
    checkCall (Standard.registries : Registries σ Float) call = .ok () := by
  obtain ⟨_, _, _, _, schema, function, _, known, listed, rfl⟩ :=
    Store.mem_broughtAs_iff.1 member
  obtain ⟨-, noObjectives, constraints⟩ := Standard.of_get?_catalog known
  cases role with
  | objective =>
      rw [ShapeDef.defaults, noObjectives] at listed
      cases listed
  | constraint =>
      rw [ShapeDef.defaults] at listed
      rcases constraints with none | ⟨both, -⟩
      · rw [none] at listed
        cases listed
      · rw [both] at listed
        simp only [List.mem_cons, List.not_mem_nil, or_false] at listed
        have contained : (Standard.constraints : ScoreTable Float).contains
            function = true := by
          rcases listed with rfl | rfl
          · rfl
          · rfl
        exact if_pos contained

theorem ordinary_of_varies {store : Store Float} {catalog : Catalog}
    (ordinary : catalog.IsOrdinary) {path : Path}
    (varies : store.Varies catalog path) :
    path.propertyName? ≠ some reservedProperty := by
  cases varies with
  | field => simp [Path.propertyName?]
  | @property object name property kind properties schema definition _ known
      listed _ =>
      intro reserved
      exact ordinary.ne_reserved known listed (Option.some.inj reserved)

section Assembly

variable {store : Store Float} {config : Config} {sampled : Sampled}
  {generator : Generator}
  (validCatalog : (Standard.catalog config.canvas).validate = .ok ())
  (plain : store.Plain (Standard.catalog config.canvas))
  (drawn : (sample store (Standard.catalog config.canvas) config
    (store.varyingPaths (Standard.catalog config.canvas))).run ⟨config.seed⟩ =
      (sampled, generator))

include drawn

theorem callsOf_of_plain (plain : store.Plain (Standard.catalog config.canvas))
    (role : Role) :
    callsOf role sampled.store (Standard.catalog config.canvas) =
      sampled.store.broughtAs role (Standard.catalog config.canvas) := by
  have kept := declaredCalls_sample (congrArg (·.1.store) drawn)
  rw [callsOf_eq, ← Store.filter_declaredCalls, kept,
    Store.filter_declaredCalls, declaredAs_of_plain plain, List.nil_append]

theorem checkCalls_of_plain
    (plain : store.Plain (Standard.catalog config.canvas)) :
    (callsOf .objective sampled.store (Standard.catalog config.canvas) ++
      callsOf .constraint sampled.store (Standard.catalog config.canvas)).forM
        (checkCall (Standard.registries : Registries σ Float)) = .ok () := by
  apply Except.forM_eq_ok
  intro call member
  simp only [callsOf_of_plain drawn plain, List.mem_append] at member
  exact member.elim checkCall_of_mem_broughtAs checkCall_of_mem_broughtAs

include validCatalog

/-- All varying paths can be read back after sampling. -/
theorem exists_initialValues :
    ∃ values, (store.varyingPaths (Standard.catalog config.canvas)).mapM
      (initialValue sampled.store) = .ok values := by
  apply Except.exists_mapM_eq_ok
  intro path listed
  have varies := Store.mem_varyingPaths_iff.1 listed
  obtain ⟨number, found⟩ := content?_sample_of_ordinary validCatalog config
    ⟨config.seed⟩ varies
    (ordinary_of_varies (Standard.isOrdinary_catalog config.canvas) varies)
  rw [congrArg (·.1.store) drawn] at found
  exact ⟨number, initialValue_of_float found⟩

include plain

theorem isFurnished_of_plain :
    sampled.store.IsFurnished (Standard.catalog config.canvas) :=
  isFurnished_sample (congrArg (·.1.store) drawn) validCatalog
    (Standard.isOrdinary_catalog config.canvas) plain

end Assembly

/-- The energy of a problem that was made of a plain diagram has a value. -/
theorem Assembled.evaluate_of_plain {store : Store Float} {config : Config}
    {problem : Problem σ}
    (assembled : Assembled store (Standard.catalog config.canvas)
      Standard.registries config problem)
    (plain : store.Plain (Standard.catalog config.canvas))
    (deep : 4 ≤ config.recursionLimit) (penaltyWeight : Float)
    {values : List Float}
    (sameLength : values.length = problem.varyingPaths.length)
    (state : RunState σ) :
    ∃ total, (problem.energy.evaluate penaltyWeight values).outcome state =
      .ok total := by
  obtain ⟨notices, drawn⟩ := assembled.sampled
  have scalars (object name : String)
      (listed : .field object name ∈ problem.varyingPaths) :
      problem.store.kind? object name = none := by
    rw [assembled.varyingPaths] at listed
    have kinds := kind?_sample store (Standard.catalog config.canvas) config
      (store.varyingPaths (Standard.catalog config.canvas)) ⟨config.seed⟩
      object name
    rw [drawn] at kinds
    cases Store.mem_varyingPaths_iff.1 listed with
    | field found =>
        rw [kinds, Store.kind?, found]
        rfl
  have furnished := isFurnished_of_plain assembled.validCatalog plain drawn
  rw [assembled.energy]
  exact evaluate_furnished furnished rfl
    (assembled.objectives.trans (callsOf_of_plain drawn plain .objective))
    (assembled.constraints.trans (callsOf_of_plain drawn plain .constraint))
    deep scalars penaltyWeight sameLength.symm state

/-- With the standard functions and the standard kinds of a canvas, a plain
diagram in which something varies becomes a problem, in every run, and its
energy has a value for every penalty weight and all varying values. -/
theorem plain_diagram_has_energy (store : Store Float) (config : Config)
    (validConfig : config.validate = .ok ())
    (deep : 4 ≤ config.recursionLimit)
    (validCatalog : (Standard.catalog config.canvas).validate = .ok ())
    (plain : store.Plain (Standard.catalog config.canvas))
    (someVarying : store.varyingPaths (Standard.catalog config.canvas) ≠ [])
    (detail : Option Level) (run : RunState σ) :
    ∃ problem later, assemble detail store (Standard.catalog config.canvas)
      Standard.registries config run = .ok problem later ∧
      ∀ penaltyWeight values,
        values.length = problem.varyingPaths.length →
        ∀ state, ∃ total,
          (problem.energy.evaluate penaltyWeight values).outcome state =
            .ok total := by
  cases drawn : (sample store (Standard.catalog config.canvas) config
      (store.varyingPaths (Standard.catalog config.canvas))).run
        ⟨config.seed⟩ with
  | mk sampled generator =>
      have furnished := isFurnished_of_plain validCatalog plain drawn
      have enough : 2 ≤ (Evaluator.capped (Standard.computations :
          Computations σ Float) config.recursionLimit).limit :=
        Nat.le_min.2 ⟨Nat.le_trans (by decide) deep, by decide⟩
      obtain ⟨shapes, shaped⟩ :=
        forget_evalShapes_furnished furnished enough run.world
      obtain ⟨values, valued⟩ := exists_initialValues validCatalog drawn
      have succeeds : (assemble detail store (Standard.catalog config.canvas)
          Standard.registries config).Succeeds run.world :=
        succeeds_assemble detail validConfig validCatalog
          (checkKinds_of_plain plain) someVarying drawn
          (checkCalls_of_plain drawn plain) shaped valued
      obtain ⟨problem, later, ran⟩ := succeeds run rfl
      refine ⟨problem, later, ran, ?_⟩
      intro penaltyWeight values sameLength state
      exact (assembled_of_assemble ran).evaluate_of_plain plain deep
        penaltyWeight sameLength state

/-- A free field, and a circle with a free radius. -/
def circleStore : Store Float :=
  ((Store.empty.declare "A").bind "A" "size" (.scalar (.symbolic .vary))).bind
    "A" "disc" (.shape "Circle" (Table.empty.insert "r" (.symbolic .vary)))

theorem plain_circleStore (canvas : Canvas) :
    circleStore.Plain (Standard.catalog canvas) := by
  have slots : circleStore.slots =
      [("A", "disc", .shape "Circle" (Table.empty.insert "r" (.symbolic .vary))),
        ("A", "size", .scalar (.symbolic .vary))] := rfl
  constructor
  · intro object name content found function arguments
    rw [← Store.mem_slots_iff, slots] at found
    simp only [List.mem_cons, Prod.mk.injEq, Slot.scalar.injEq, reduceCtorEq,
      and_false, List.not_mem_nil, or_false, false_or] at found
    obtain ⟨-, -, rfl⟩ := found
    exact ⟨by simp, by simp⟩
  · intro object name kind properties found
    rw [← Store.mem_slots_iff, slots] at found
    simp only [List.mem_cons, Prod.mk.injEq, Slot.shape.injEq, reduceCtorEq,
      and_false, List.not_mem_nil, or_false] at found
    obtain ⟨-, -, rfl, rfl⟩ := found
    obtain ⟨schema, known⟩ : ∃ schema,
        (Standard.catalog canvas).get? "Circle" = some schema :=
      Table.isSome_get?_ofList (by simp)
    have listed := Table.mem_of_get?_ofList known
    simp only [List.mem_cons, Prod.mk.injEq, String.reduceEq, true_and,
      false_and, List.not_mem_nil, or_false] at listed
    subst listed
    refine ⟨_, known, ?_⟩
    intro property content held
    rw [Table.get?_insert] at held
    split at held
    case isTrue radius =>
      subst radius
      cases held
      exact ⟨Standard.uniform 20 100,
        Table.get?_ofList_of_mem (by simp) (by simp), .inl rfl⟩
    case isFalse => cases held

theorem plain_diagram_has_energy_circle :
    Config.validate {} = .ok () ∧
    (Standard.catalog {}).validate = .ok () ∧
    circleStore.Plain (Standard.catalog {}) ∧
    circleStore.varyingPaths (Standard.catalog {}) =
      [.property "A" "disc" "r", .property "A" "disc" "x",
        .property "A" "disc" "y", .field "A" "size"] ∧
    ∃ (problem : Problem Unit) (later : RunState Unit),
      assemble none circleStore (Standard.catalog {}) Standard.registries {}
        ⟨(), []⟩ = .ok problem later ∧
      ∃ total, (problem.energy.evaluate 1 [3, 4, 5, 6]).outcome ⟨(), []⟩ =
        .ok total := by
  have validConfig : Config.validate {} = .ok () := by decide +kernel
  have validCatalog : (Standard.catalog {}).validate = .ok () := by
    decide +kernel
  have varying : circleStore.varyingPaths (Standard.catalog {}) =
      [.property "A" "disc" "r", .property "A" "disc" "x",
        .property "A" "disc" "y", .field "A" "size"] := by decide +kernel
  refine ⟨validConfig, validCatalog, plain_circleStore {}, varying, ?_⟩
  obtain ⟨problem, later, ran, energies⟩ := plain_diagram_has_energy
    circleStore {} validConfig (by decide) validCatalog (plain_circleStore {})
    (by rw [varying]; simp) none (⟨(), []⟩ : RunState Unit)
  refine ⟨problem, later, ran, energies 1 [3, 4, 5, 6] ?_ ⟨(), []⟩⟩
  rw [(assembled_of_assemble ran).varyingPaths, varying]
  rfl

end Problem

end DiagramEnergy
