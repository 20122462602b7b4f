import DiagramEnergy.Catalog
import DiagramEnergy.Json.Decoder
import DiagramEnergy.Json.Reader
import DiagramEnergy.Json.Writer

/-!
# Catalogs as JSON

A catalog is a record of records; samplers and values are choices between
variants.
-/

namespace DiagramEnergy

namespace ValueType

def ofName? : String → Option ValueType
  | "Float" => some .float
  | "Int" => some .int
  | "Bool" => some .bool
  | "Str" => some .str
  | "Color" => some .color
  | _ => none

def ofJson? (json : Json) : Option ValueType := do
  let (name, content) ← json.variant?
  Json.noContent? content
  ofName? name

def toJson (type : ValueType) : Json := .string type.name

end ValueType

namespace Color

def ofJson? (json : Json) : Option Color := do
  match ← json.toList? Json.toFloat? with
  | [red, green, blue, alpha] => some ⟨red, green, blue, alpha⟩
  | _ => none

def toJson (color : Color) : Json :=
  .array [.float color.red, .float color.green, .float color.blue, .float color.alpha]

end Color

namespace Value

def ofJson? (json : Json) : Option (Value Float) := do
  let (name, content) ← json.variant?
  let content ← content
  match ← ValueType.ofName? name with
  | .float => .float <$> content.toFloat?
  | .int => .int <$> content.toInt64?
  | .bool => .bool <$> content.toBool?
  | .str => .str <$> content.toString?
  | .color => .color <$> Color.ofJson? content

def contentJson : Value Float → Json
  | .float number => .float number
  | .int number => .number (.integer number.toInt)
  | .bool truth => .bool truth
  | .str text => .string text
  | .color parts => parts.toJson

def toJson (value : Value Float) : Json := .record [(value.type.name, value.contentJson)]

end Value

namespace Sampler

def ofJson? (json : Json) : Option Sampler := do
  let (name, content) ← json.variant?
  match name with
  | "Uniform" =>
    match ← (← content).fields? ["min", "max"] with
    | [low, high] =>
      let low ← Json.required? Json.toFloat? low
      let high ← Json.required? Json.toFloat? high
      return .uniform low high
    | _ => none
  | "Fixed" =>
    match ← (← content).fields? ["value"] with
    | [value] => .fixed <$> Json.required? Value.ofJson? value
    | _ => none
  | "Color" =>
    Json.noContent? content
    return .color
  | "Choice" =>
    match ← (← content).fields? ["options"] with
    | [options] => .choice <$> Json.required? (Json.toList? Json.toString?) options
    | _ => none
  | "Bool" =>
    Json.noContent? content
    return .bool
  | _ => none

def toJson : Sampler → Json
  | .uniform low high =>
    .record [("Uniform", .record [("min", .float low), ("max", .float high)])]
  | .fixed value => .record [("Fixed", .record [("value", value.toJson)])]
  | .color => .string "Color"
  | .choice options =>
    .record [("Choice", .record [("options", .array (options.map .string))])]
  | .bool => .string "Bool"

end Sampler

namespace PropertyDef

def ofJson? (json : Json) : Option PropertyDef := do
  match ← json.fields? ["ty", "pending", "sampler"] with
  | [type, pending, sampler] =>
    let type ← Json.required? ValueType.ofJson? type
    let pending ← Json.optional? false Json.toBool? pending
    let sampler ← Json.required? Sampler.ofJson? sampler
    return ⟨type, pending, sampler⟩
  | _ => none

def toJson (definition : PropertyDef) : Json :=
  .record [("ty", definition.type.toJson), ("pending", .bool definition.pending),
    ("sampler", definition.sampler.toJson)]

end PropertyDef

/-- A table as an object with its keys in order. -/
def Table.toJson {α : Type} (value : α → Json) (table : Table String α) : Json :=
  .record (table.entries.map fun entry => (entry.1, value entry.2))

namespace ShapeDef

def ofJson? (json : Json) : Option ShapeDef := do
  match ← json.fields? ["properties", "default_objectives", "default_constraints"] with
  | [properties, objectives, constraints] =>
    let properties ← Json.required? (Json.toTable? PropertyDef.ofJson?) properties
    let objectives ← Json.optional? [] (Json.toList? Json.toString?) objectives
    let constraints ← Json.optional? [] (Json.toList? Json.toString?) constraints
    return ⟨properties, objectives, constraints⟩
  | _ => none

def toJson (definition : ShapeDef) : Json :=
  .record [("properties", definition.properties.toJson PropertyDef.toJson),
    ("default_objectives", .array (definition.defaultObjectives.map .string)),
    ("default_constraints", .array (definition.defaultConstraints.map .string))]

end ShapeDef

namespace Catalog

def ofJson? (json : Json) : Option Catalog := do
  match ← json.fields? ["shapes"] with
  | [shapes] => .mk <$> Json.required? (Json.toTable? ShapeDef.ofJson?) shapes
  | _ => none

def toJson (catalog : Catalog) : Json :=
  .record [("shapes", catalog.kinds.toJson ShapeDef.toJson)]

/-- Reads a catalog and validates it. -/
def load (source : String) : Except Error Catalog :=
  match (Json.parse source).bind ofJson? with
  | none => .error (.config .unreadableCatalog)
  | some catalog => do
    catalog.validate
    return catalog

def save (catalog : Catalog) : String := catalog.toJson.render

end Catalog

end DiagramEnergy
