import DiagramEnergy.Error
import DiagramEnergy.Table

/-!
# Values and evaluated shapes

What expressions evaluate to: plain values of five types, and shapes, which are
a kind with plain values for named properties.
-/

namespace DiagramEnergy

inductive ValueType where
  | float
  | int
  | bool
  | str
  | color
  deriving DecidableEq

/-- The word for a type in messages about values. -/
def ValueType.label : ValueType → String
  | .float => "float"
  | .int => "int"
  | .bool => "bool"
  | .str => "string"
  | .color => "color"

/-- The name of a type in a catalog. -/
def ValueType.name : ValueType → String
  | .float => "Float"
  | .int => "Int"
  | .bool => "Bool"
  | .str => "Str"
  | .color => "Color"

/-- Red, green, blue and opacity, from zero to one. -/
structure Color where
  red : Float
  green : Float
  blue : Float
  alpha : Float
  deriving DecidableEq

inductive Value (N : Type) where
  | float (number : N)
  | int (number : Int64)
  | bool (truth : Bool)
  | str (text : String)
  | color (parts : Color)
  deriving DecidableEq

namespace Value

variable {M N : Type}

def type : Value N → ValueType
  | .float _ => .float
  | .int _ => .int
  | .bool _ => .bool
  | .str _ => .str
  | .color _ => .color

def label (value : Value N) : String := value.type.label

def float? : Value N → Option N
  | .float number => some number
  | _ => none

def mapFloat (change : N → M) : Value N → Value M
  | .float number => .float (change number)
  | .int number => .int number
  | .bool truth => .bool truth
  | .str text => .str text
  | .color parts => .color parts

end Value

/-- A shape with all its properties evaluated. -/
structure Shape (N : Type) where
  kind : String
  properties : Table String (Value N)
  deriving DecidableEq

namespace Shape

variable {N : Type}

/-- The text under `name`, which evaluation sets to the path of the shape. -/
def name (shape : Shape N) : String :=
  match shape.properties.get? "name" with
  | some (.str text) => text
  | _ => ""

def get? (shape : Shape N) (property : String) : Option (Value N) :=
  shape.properties.get? property

def has (shape : Shape N) (property : String) : Bool :=
  shape.properties.contains property

def float (shape : Shape N) (property : String) : Except Error N :=
  match shape.get? property with
  | some (.float number) => .ok number
  | some other =>
    .error (.typeMismatch (shape.name ++ "." ++ property) (.expected "float" other.label))
  | none =>
    .error (.typeMismatch (shape.name ++ "." ++ property)
      (.missingProperty shape.kind property))

end Shape

/-- The result of an evaluation, and what computations are applied to. -/
inductive Evaluated (N : Type) where
  | plain (value : Value N)
  | shaped (shape : Shape N)
  deriving DecidableEq

namespace Evaluated

variable {N : Type}

def label : Evaluated N → String
  | .plain value => value.label
  | .shaped _ => "shape"

def toFloat (result : Evaluated N) (context : String) : Except Error N :=
  match result with
  | .plain (.float number) => .ok number
  | other => .error (.typeMismatch context (.expected "float" other.label))

def toShape (result : Evaluated N) (context : String) : Except Error (Shape N) :=
  match result with
  | .shaped shape => .ok shape
  | other => .error (.typeMismatch context (.expected "shape" other.label))

def toValue (result : Evaluated N) (context : String) : Except Error (Value N) :=
  match result with
  | .plain value => .ok value
  | .shaped shape =>
    .error (.typeMismatch context (.expected "a value" ("shape " ++ shape.name)))

end Evaluated

end DiagramEnergy
