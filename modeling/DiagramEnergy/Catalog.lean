import DiagramEnergy.Random
import DiagramEnergy.Table
import DiagramEnergy.Value

/-!
# Catalogs of shape kinds

A catalog lists the kinds of shapes, each with the properties it has.  Every
property has a type and a sampler for its initial value; a pending property is
left to text layout, which is not part of sampling or optimization.
-/

namespace DiagramEnergy

inductive Sampler where
  | uniform (low high : Float)
  | fixed (value : Value Float)
  | color
  | choice (options : List String)
  | bool
  deriving DecidableEq

namespace Sampler

def type : Sampler → ValueType
  | .uniform _ _ => .float
  | .fixed value => value.type
  | .color => .color
  | .choice _ => .str
  | .bool => .bool

/-- Draws a value.  Colors are half transparent, and a choice between no options
needs no draw. -/
def sample : Sampler → Random (Value Float)
  | .uniform low high => .float <$> Random.between low high
  | .fixed value => return value
  | .color => do
    let red ← Random.unit
    let green ← Random.unit
    let blue ← Random.unit
    return .color ⟨red, green, blue, 0.5⟩
  | .choice [] => return .str ""
  | .choice (first :: rest) => do
    let index ← Random.below (rest.length + 1)
    return .str ((first :: rest).getD index "")
  | .bool => .bool <$> Random.bool

end Sampler

structure PropertyDef where
  type : ValueType
  pending : Bool := false
  sampler : Sampler
  deriving DecidableEq

def PropertyDef.isNumeric (definition : PropertyDef) : Bool := definition.type == .float

structure ShapeDef where
  properties : Table String PropertyDef := .empty
  /-- The objectives and constraints that every shape of the kind brings along. -/
  defaultObjectives : List String := []
  defaultConstraints : List String := []
  deriving DecidableEq

namespace ShapeDef

def numericProperties (definition : ShapeDef) : List String :=
  (definition.properties.entries.filter (·.2.isNumeric)).map Prod.fst

def pendingProperties (definition : ShapeDef) : List String :=
  (definition.properties.entries.filter (·.2.pending)).map Prod.fst

end ShapeDef

structure Catalog where
  kinds : Table String ShapeDef
  deriving DecidableEq

namespace Catalog

def get? (catalog : Catalog) (kind : String) : Option ShapeDef := catalog.kinds.get? kind

def contains (catalog : Catalog) (kind : String) : Bool := catalog.kinds.contains kind

def isRange (low high : Float) : Bool := low.isFinite && high.isFinite && low ≤ high

/-- Refuses a sampler that does not fit its property or cannot be drawn from. -/
def validateProperty (kind name : String) (definition : PropertyDef) : Except Error Unit :=
  if definition.sampler.type ≠ definition.type then
    .error (.config
      (.samplerType kind name definition.sampler.type.name definition.type.name))
  else
    match definition.sampler with
    | .uniform low high =>
      if isRange low high then .ok ()
      else .error (.config (.uniformRange kind name low high))
    | .choice [] => .error (.config (.noOptions kind name))
    | _ => .ok ()

def validate (catalog : Catalog) : Except Error Unit :=
  catalog.kinds.entries.forM fun (kind, definition) =>
    definition.properties.entries.forM fun (name, property) =>
      validateProperty kind name property

end Catalog

end DiagramEnergy
