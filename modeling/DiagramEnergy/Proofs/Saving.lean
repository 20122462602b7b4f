import DiagramEnergy.Config
import DiagramEnergy.Proofs.Json.Decoding
import DiagramEnergy.Proofs.Outcomes

/-!
# Saved catalogs and configurations

Whatever a catalog or a configuration was loaded from, what it is saved as loads
as the same again.  All that is asked of its floats is that those which are
finite read back; no other floats are ever loaded.
-/

namespace DiagramEnergy

open Json (Legible ReadsBack Survives)

theorem validated_eq_ok_iff {α : Type} {validate : α → Except Error Unit}
    {read value : α} :
    (do
        validate read
        return read) = Except.ok value ↔
      read = value ∧ validate value = .ok () := by
  rw [Except.bind_eq_ok]
  constructor
  · rintro ⟨⟨⟩, valid, same⟩
    cases same
    exact ⟨rfl, valid⟩
  · rintro ⟨rfl, valid⟩
    exact ⟨(), valid, rfl⟩

/-! ## Values -/

theorem ValueType.survives (type : ValueType) : Survives ofJson? toJson type :=
  ⟨.text (some type.name), by cases type <;> rfl⟩

namespace Color

def parts (color : Color) : List Float :=
  [color.red, color.green, color.blue, color.alpha]

theorem survives {color : Color} (readBack : ∀ part ∈ color.parts, ReadsBack part) :
    Survives ofJson? toJson color := by
  have list := Json.survives_list fun part member => Json.survives_float (readBack part member)
  have read : (toJson color).toList? Json.toFloat? = some color.parts := list.read
  exact ⟨list.legible, by rw [ofJson?, read]; rfl⟩

theorem isFinite_of_ofJson? {json : Json} {color : Color}
    (read : ofJson? json = some color) :
    ∀ part ∈ color.parts, part.isFinite = true := by
  obtain ⟨parts, list, read⟩ := Option.bind_eq_some_iff.1 read
  split at read
  case h_1 =>
    cases read
    intro part member
    obtain ⟨content, contentRead⟩ := Json.mem_toList? list member
    exact Json.isFinite_of_toFloat? contentRead
  case h_2 => cases read

end Color

namespace Value

def floats : Value Float → List Float
  | .float number => [number]
  | .color shade => shade.parts
  | _ => []

theorem isFinite_of_ofJson? {json : Json} {value : Value Float}
    (read : ofJson? json = some value) :
    ∀ number ∈ value.floats, number.isFinite = true := by
  simp only [ofJson?, Option.bind_eq_bind, Option.bind_eq_some_iff] at read
  obtain ⟨⟨name, content⟩, -, content, -, type, -, read⟩ := read
  cases type with
  | float =>
      obtain ⟨number, contentRead, rfl⟩ := Option.map_eq_some_iff.1 read
      exact List.forall_mem_singleton.2 (Json.isFinite_of_toFloat? contentRead)
  | color =>
      obtain ⟨shade, contentRead, rfl⟩ := Option.map_eq_some_iff.1 read
      exact Color.isFinite_of_ofJson? contentRead
  | int | bool | str =>
      obtain ⟨content, -, rfl⟩ := Option.map_eq_some_iff.1 read
      exact List.forall_mem_nil _

theorem survives_content {value : Value Float}
    (readBack : ∀ number ∈ value.floats, ReadsBack number) :
    Legible value.contentJson ∧ ofJson? value.toJson = some value := by
  cases value with
  | float number =>
      have content := Json.survives_float (readBack number (by simp [floats]))
      exact ⟨content.legible, congrArg (Option.map Value.float) content.read⟩
  | int number =>
      have content := Json.survives_integer number
      exact ⟨content.legible, congrArg (Option.map Value.int) content.read⟩
  | bool truth =>
      have content := Json.survives_bool truth
      exact ⟨content.legible, congrArg (Option.map Value.bool) content.read⟩
  | str text =>
      have content := Json.survives_string text
      exact ⟨content.legible, congrArg (Option.map Value.str) content.read⟩
  | color shade =>
      have content : Survives Color.ofJson? Color.toJson shade :=
        Color.survives readBack
      exact ⟨content.legible, congrArg (Option.map Value.color) content.read⟩

theorem survives {value : Value Float}
    (readBack : ∀ number ∈ value.floats, ReadsBack number) :
    Survives ofJson? toJson value := by
  obtain ⟨legible, read⟩ := survives_content readBack
  exact ⟨Json.legible_variant _ legible, read⟩

end Value

namespace Sampler

def floats : Sampler → List Float
  | .uniform low high => [low, high]
  | .fixed value => value.floats
  | _ => []

theorem isFinite_of_ofJson? {json : Json} {sampler : Sampler}
    (read : ofJson? json = some sampler) :
    ∀ number ∈ sampler.floats, number.isFinite = true := by
  simp only [ofJson?, Option.bind_eq_bind, Option.bind_eq_some_iff] at read
  obtain ⟨⟨name, content⟩, -, read⟩ := read
  split at read
  case h_1 =>
    simp only [Option.bind_eq_some_iff] at read
    obtain ⟨content, -, fields, -, read⟩ := read
    split at read
    · simp only [Option.bind_eq_some_iff, Option.pure_def, Option.some.injEq] at read
      obtain ⟨low, lowRead, high, highRead, rfl⟩ := read
      obtain ⟨lowContent, lowRead⟩ := Json.exists_of_required? lowRead
      obtain ⟨highContent, highRead⟩ := Json.exists_of_required? highRead
      exact List.forall_mem_cons.2 ⟨Json.isFinite_of_toFloat? lowRead,
        List.forall_mem_singleton.2 (Json.isFinite_of_toFloat? highRead)⟩
    · cases read
  case h_2 =>
    simp only [Option.bind_eq_some_iff] at read
    obtain ⟨content, -, fields, -, read⟩ := read
    split at read
    · obtain ⟨value, valueRead, rfl⟩ := Option.map_eq_some_iff.1 read
      obtain ⟨valueContent, valueRead⟩ := Json.exists_of_required? valueRead
      exact Value.isFinite_of_ofJson? valueRead
    · cases read
  case h_3 =>
    obtain ⟨-, -, read⟩ := Option.bind_eq_some_iff.1 read
    cases read
    exact List.forall_mem_nil _
  case h_4 =>
    simp only [Option.bind_eq_some_iff] at read
    obtain ⟨content, -, fields, -, read⟩ := read
    split at read
    · obtain ⟨options, -, rfl⟩ := Option.map_eq_some_iff.1 read
      exact List.forall_mem_nil _
    · cases read
  case h_5 =>
    obtain ⟨-, -, read⟩ := Option.bind_eq_some_iff.1 read
    cases read
    exact List.forall_mem_nil _
  case h_6 => cases read

theorem survives {sampler : Sampler}
    (readBack : ∀ number ∈ sampler.floats, ReadsBack number) :
    Survives ofJson? toJson sampler := by
  cases sampler with
  | uniform low high =>
      have lowSurvives := Json.survives_float (readBack low (by simp [floats]))
      have highSurvives := Json.survives_float (readBack high (by simp [floats]))
      have fields := Json.fields?_record
        [("min", .float low), ("max", .float high)] (by simp)
      simp only [List.map_cons, List.map_nil] at fields
      refine ⟨Json.legible_variant _ (Json.legible_record ?_), ?_⟩
      · simp [lowSurvives.legible, highSurvives.legible]
      · simp only [ofJson?, toJson, Json.variant?_record, Option.bind_eq_bind,
          Option.bind_some, fields, Json.required?, lowSurvives.read,
          highSurvives.read, Option.pure_def]
  | fixed value =>
      have valueSurvives := Value.survives readBack
      have fields := Json.fields?_record [("value", value.toJson)] (by simp)
      simp only [List.map_cons, List.map_nil] at fields
      refine ⟨Json.legible_variant _ (Json.legible_variant _ valueSurvives.legible), ?_⟩
      simp only [ofJson?, toJson, Json.variant?_record, Option.bind_eq_bind,
        Option.bind_some, fields, Json.required?, valueSurvives.read]
      rfl
  | color => exact ⟨.text (some "Color"), rfl⟩
  | choice options =>
      have optionsSurvive := Json.survives_list fun option (_ : option ∈ options) =>
        Json.survives_string option
      have fields := Json.fields?_record
        [("options", .array (options.map .string))] (by simp)
      simp only [List.map_cons, List.map_nil] at fields
      refine ⟨Json.legible_variant _ (Json.legible_variant _ optionsSurvive.legible), ?_⟩
      simp only [ofJson?, toJson, Json.variant?_record, Option.bind_eq_bind,
        Option.bind_some, fields, Json.required?, optionsSurvive.read]
      rfl
  | bool => exact ⟨.text (some "Bool"), rfl⟩

end Sampler

/-! ## Catalogs -/

namespace PropertyDef

theorem isFinite_of_ofJson? {json : Json} {definition : PropertyDef}
    (read : ofJson? json = some definition) :
    ∀ number ∈ definition.sampler.floats, number.isFinite = true := by
  obtain ⟨fields, -, read⟩ := Option.bind_eq_some_iff.1 read
  split at read
  case h_1 =>
    simp only [Option.bind_eq_bind, Option.bind_eq_some_iff, Option.pure_def,
      Option.some.injEq] at read
    obtain ⟨type, -, pending, -, sampler, samplerRead, rfl⟩ := read
    obtain ⟨content, samplerRead⟩ := Json.exists_of_required? samplerRead
    exact Sampler.isFinite_of_ofJson? samplerRead
  case h_2 => cases read

theorem survives {definition : PropertyDef}
    (readBack : ∀ number ∈ definition.sampler.floats, ReadsBack number) :
    Survives ofJson? toJson definition := by
  have type := definition.type.survives
  have sampler := Sampler.survives readBack
  have fields := Json.fields?_record [("ty", definition.type.toJson),
    ("pending", .bool definition.pending),
    ("sampler", definition.sampler.toJson)] (by simp)
  simp only [List.map_cons, List.map_nil] at fields
  refine ⟨Json.legible_record ?_, ?_⟩
  · simp [type.legible, sampler.legible, Legible.bool]
  · simp only [ofJson?, toJson, fields, Option.bind_eq_bind, Option.bind_some,
      Json.required?, Json.optional?, type.read, sampler.read, Json.toBool?]
    rfl

end PropertyDef

namespace ShapeDef

def floats (definition : ShapeDef) : List Float :=
  definition.properties.entries.flatMap fun entry => entry.2.sampler.floats

theorem isFinite_of_ofJson? {json : Json} {definition : ShapeDef}
    (read : ofJson? json = some definition) :
    ∀ number ∈ definition.floats, number.isFinite = true := by
  obtain ⟨fields, -, read⟩ := Option.bind_eq_some_iff.1 read
  split at read
  case h_1 =>
    simp only [Option.bind_eq_bind, Option.bind_eq_some_iff, Option.pure_def,
      Option.some.injEq] at read
    obtain ⟨properties, tableRead, objectives, -, constraints, -, rfl⟩ := read
    obtain ⟨content, tableRead⟩ := Json.exists_of_required? tableRead
    intro number member
    obtain ⟨entry, listed, member⟩ := List.mem_flatMap.1 member
    obtain ⟨content, entryRead⟩ := Json.mem_toTable? tableRead listed
    exact PropertyDef.isFinite_of_ofJson? entryRead number member
  case h_2 => cases read

theorem survives {definition : ShapeDef}
    (readBack : ∀ number ∈ definition.floats, ReadsBack number) :
    Survives ofJson? toJson definition := by
  have properties := Json.survives_table fun entry listed =>
    PropertyDef.survives fun number member =>
      readBack number (List.mem_flatMap.2 ⟨entry, listed, member⟩)
  have names : ∀ names : List String, Survives (Json.toList? Json.toString?)
      (fun names => .array (names.map Json.string)) names := fun names =>
    Json.survives_list fun name _ => Json.survives_string name
  have objectives := names definition.defaultObjectives
  have constraints := names definition.defaultConstraints
  have fields := Json.fields?_record
    [("properties", definition.properties.toJson PropertyDef.toJson),
      ("default_objectives", .array (definition.defaultObjectives.map .string)),
      ("default_constraints", .array (definition.defaultConstraints.map .string))]
    (by simp)
  simp only [List.map_cons, List.map_nil] at fields
  refine ⟨Json.legible_record ?_, ?_⟩
  · simp [properties.legible, objectives.legible, constraints.legible]
  · simp only [ofJson?, toJson, fields, Option.bind_eq_bind, Option.bind_some,
      Json.required?, Json.optional?, properties.read, objectives.read,
      constraints.read]
    rfl

end ShapeDef

namespace Catalog

def floats (catalog : Catalog) : List Float :=
  catalog.kinds.entries.flatMap fun entry => entry.2.floats

theorem isFinite_of_ofJson? {json : Json} {catalog : Catalog}
    (read : ofJson? json = some catalog) :
    ∀ number ∈ catalog.floats, number.isFinite = true := by
  obtain ⟨fields, -, read⟩ := Option.bind_eq_some_iff.1 read
  split at read
  case h_1 =>
    obtain ⟨kinds, tableRead, rfl⟩ := Option.map_eq_some_iff.1 read
    obtain ⟨content, tableRead⟩ := Json.exists_of_required? tableRead
    intro number member
    obtain ⟨entry, listed, member⟩ := List.mem_flatMap.1 member
    obtain ⟨content, entryRead⟩ := Json.mem_toTable? tableRead listed
    exact ShapeDef.isFinite_of_ofJson? entryRead number member
  case h_2 => cases read

theorem survives {catalog : Catalog}
    (readBack : ∀ number ∈ catalog.floats, ReadsBack number) :
    Survives ofJson? toJson catalog := by
  have kinds := Json.survives_table fun entry listed =>
    ShapeDef.survives fun number member =>
      readBack number (List.mem_flatMap.2 ⟨entry, listed, member⟩)
  have fields := Json.fields?_record
    [("shapes", catalog.kinds.toJson ShapeDef.toJson)] (by simp)
  simp only [List.map_cons, List.map_nil] at fields
  refine ⟨Json.legible_variant _ kinds.legible, ?_⟩
  simp only [ofJson?, toJson, fields, Option.bind_eq_bind, Option.bind_some,
    Json.required?, kinds.read]
  rfl

theorem load_eq_ok_iff {source : String} {catalog : Catalog} :
    load source = .ok catalog ↔
      (Json.parse source).bind ofJson? = some catalog ∧
        catalog.validate = .ok () := by
  rw [load]
  cases (Json.parse source).bind ofJson? with
  | none => simp
  | some read => rw [Option.some.injEq, validated_eq_ok_iff]

theorem load_save {source : String} {catalog : Catalog}
    (loaded : load source = .ok catalog)
    (readBack : ∀ number ∈ catalog.floats, number.isFinite = true →
      ReadsBack number) :
    load catalog.save = .ok catalog := by
  obtain ⟨read, valid⟩ := load_eq_ok_iff.1 loaded
  obtain ⟨json, -, read⟩ := Option.bind_eq_some_iff.1 read
  have finite := isFinite_of_ofJson? read
  have saved : Survives ofJson? toJson catalog :=
    survives fun number member => readBack number member (finite number member)
  exact load_eq_ok_iff.2 ⟨saved.read_render, valid⟩

end Catalog

/-! ## Configurations -/

theorem Canvas.survives {canvas : Canvas} (width : ReadsBack canvas.width)
    (height : ReadsBack canvas.height) : Survives ofJson? toJson canvas := by
  have width := Json.survives_float width
  have height := Json.survives_float height
  have fields := Json.fields?_record
    [("width", .float canvas.width), ("height", .float canvas.height)] (by simp)
  simp only [List.map_cons, List.map_nil] at fields
  refine ⟨Json.legible_record ?_, ?_⟩
  · simp [width.legible, height.legible]
  · simp only [ofJson?, toJson, fields, Option.bind_eq_bind, Option.bind_some,
      Json.optional?, width.read, height.read]
    rfl

namespace Config

def floats (config : Config) : List Float :=
  [config.canvas.width, config.canvas.height, config.constraintWeight,
    config.initialPenaltyWeight]

theorem validate_eq_ok_iff {config : Config} :
    config.validate = .ok () ↔
      (∀ number ∈ config.floats, isPositive number = true) ∧
        0 < config.recursionLimit ∧
          config.recursionLimit ≤ Evaluator.maxLimit := by
  simp only [validate, floats, List.forall_mem_cons, List.not_mem_nil,
    false_implies, implies_true, and_true]
  cases isPositive config.canvas.width <;>
    cases isPositive config.canvas.height <;>
    cases isPositive config.constraintWeight <;>
    cases isPositive config.initialPenaltyWeight <;>
    simp [Nat.pos_iff_ne_zero]

/-- A valid configuration has finite floats, and its depth budget fits 64 bits. -/
theorem of_validate {config : Config} (valid : config.validate = .ok ()) :
    (∀ number ∈ config.floats, number.isFinite = true) ∧
      config.recursionLimit < Nat.pow 2 64 := by
  obtain ⟨positive, -, bounded⟩ := validate_eq_ok_iff.1 valid
  exact ⟨fun number member => (Bool.and_eq_true_iff.1 (positive number member)).1,
    Nat.lt_of_le_of_lt bounded (by decide)⟩

theorem survives {config : Config}
    (readBack : ∀ number ∈ config.floats, ReadsBack number)
    (fits : config.recursionLimit < Nat.pow 2 64) :
    Survives ofJson? toJson config := by
  simp only [floats, List.forall_mem_cons] at readBack
  obtain ⟨width, height, constraintWeight, penaltyWeight, -⟩ := readBack
  have seed := Json.survives_natural config.seed.toNat_lt
  have canvas := Canvas.survives width height
  have constraintWeight := Json.survives_float constraintWeight
  have penaltyWeight := Json.survives_float penaltyWeight
  have limit := Json.survives_natural fits
  have fields := Json.fields?_record
    [("seed", .number (.natural config.seed.toNat)),
      ("canvas", config.canvas.toJson),
      ("constraint_weight", .float config.constraintWeight),
      ("initial_penalty_weight", .float config.initialPenaltyWeight),
      ("recursion_limit", .number (.natural config.recursionLimit))] (by simp)
  simp only [List.map_cons, List.map_nil] at fields
  refine ⟨Json.legible_record ?_, ?_⟩
  · simp [seed.legible, canvas.legible, constraintWeight.legible,
      penaltyWeight.legible, limit.legible]
  · simp only [ofJson?, toJson, fields, Option.bind_eq_bind, Option.bind_some,
      Json.optional?, seed.read, canvas.read, constraintWeight.read,
      penaltyWeight.read, limit.read, UInt64.ofNat_toNat]
    rfl

theorem load_eq_ok_iff {source : String} {config : Config} :
    load source = .ok config ↔
      (Json.parse source).bind ofJson? = some config ∧
        config.validate = .ok () := by
  rw [load]
  cases (Json.parse source).bind ofJson? with
  | none => simp
  | some read => rw [Option.some.injEq, validated_eq_ok_iff]

theorem load_save {source : String} {config : Config}
    (loaded : load source = .ok config)
    (readBack : ∀ number ∈ config.floats, number.isFinite = true →
      ReadsBack number) :
    load config.save = .ok config := by
  obtain ⟨-, valid⟩ := load_eq_ok_iff.1 loaded
  obtain ⟨finite, fits⟩ := of_validate valid
  have saved : Survives ofJson? toJson config :=
    survives (fun number member => readBack number member (finite number member)) fits
  exact load_eq_ok_iff.2 ⟨saved.read_render, valid⟩

end Config

/-! ## What was loaded -/

/-- Every text that a catalog loads from leads to a catalog that its own text
loads as again, and so for configurations.  Digits that are written for a finite
float are taken to stand for it. -/
theorem saving_keeps_what_was_loaded :
    (∀ source catalog, Catalog.load source = .ok catalog →
      (∀ number ∈ catalog.floats, number.isFinite = true → ReadsBack number) →
        Catalog.load catalog.save = .ok catalog) ∧
    ∀ source config, Config.load source = .ok config →
      (∀ number ∈ config.floats, number.isFinite = true → ReadsBack number) →
        Config.load config.save = .ok config :=
  ⟨fun _ _ => Catalog.load_save, fun _ _ => Config.load_save⟩

/-- Records as arrays, a variant as a key of `null`, a key that is skipped and one
that is repeated. -/
theorem saving_keeps_what_was_loaded_from_arrays :
    let shapes := "\x7b\"skipped\": [[], null], \"shapes\": \x7b\"Dot\": [\x7b" ++
      "\"x\": [\"Bool\", true, \"Bool\"], " ++
      "\"x\": [\x7b\"Float\": null\x7d, false, \x7b\"Uniform\": [-2, 15e-1]\x7d]" ++
      "\x7d]\x7d\x7d"
    let dot : ShapeDef := ⟨.ofList [("x", ⟨.float, false, .uniform (-2) 1.5⟩)], [], []⟩
    let catalog : Catalog := ⟨.ofList [("Dot", dot)]⟩
    let config : Config := ⟨7, ⟨640, 700⟩, 1000, 0.001, 1000⟩
    (Catalog.load shapes = .ok catalog ∧ Catalog.load catalog.save = .ok catalog) ∧
      Config.load "[7, [640], 1e3]" = .ok config ∧
        Config.load config.save = .ok config := by
  intro shapes dot catalog config
  have catalogLoaded : Catalog.load shapes = .ok catalog :=
    Catalog.load_eq_ok_iff.2 ⟨by decide +kernel, by rfl⟩
  have configLoaded : Config.load "[7, [640], 1e3]" = .ok config :=
    Config.load_eq_ok_iff.2 ⟨by decide +kernel,
      Config.validate_eq_ok_iff.2 (by decide +kernel)⟩
  exact ⟨⟨catalogLoaded,
      saving_keeps_what_was_loaded.1 _ _ catalogLoaded (by decide +kernel)⟩,
    configLoaded,
    saving_keeps_what_was_loaded.2 _ _ configLoaded (by decide +kernel)⟩

end DiagramEnergy
