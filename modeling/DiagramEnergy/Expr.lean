import DiagramEnergy.Decimal.Style
import DiagramEnergy.Path
import DiagramEnergy.Text.Quoted

/-!
# Expressions

The symbolic content of slots.  Literals, operators, computations and paths can
be evaluated; the remaining forms belong to the surrounding language and have a
meaning only where a whole diagram is read, or none yet.
-/

namespace DiagramEnergy

inductive UnaryOp where
  | plus
  | minus
  deriving DecidableEq

def UnaryOp.name : UnaryOp → String
  | .plus => "UPlus"
  | .minus => "UMinus"

inductive BinaryOp where
  | add
  | subtract
  | multiply
  | divide
  | power
  deriving DecidableEq

def BinaryOp.symbol : BinaryOp → String
  | .add => "+"
  | .subtract => "-"
  | .multiply => "*"
  | .divide => "/"
  | .power => "^"

inductive Expr where
  | int (value : Int64)
  | float (value : Float)
  | str (text : String)
  | bool (value : Bool)
  /-- Marks a slot that the optimizer controls. -/
  | vary
  | unary (op : UnaryOp) (operand : Expr)
  | binary (op : BinaryOp) (left right : Expr)
  | computation (name : String) (arguments : List Expr)
  | reference (path : Path)
  | objective (name : String) (arguments : List Expr)
  | constraint (name : String) (arguments : List Expr)
  | avoid (name : String) (arguments : List Expr)
  | constructor (kind : String) (properties : List (String × Expr))
  | layering (below above : Path)
  | list (elements : List Expr)
  | element (path : Path) (index : Int64)

instance : Inhabited Expr := ⟨.vary⟩

namespace Expr

/-- A short label for messages. -/
def describe : Expr → String
  | .int value => "integer " ++ toString value.toInt
  | .float value => "float " ++ FloatStyle.plain.text value
  | .str text => "string " ++ Text.quoted text
  | .bool value => "bool " ++ (if value then "true" else "false")
  | .vary => "varying marker"
  | .unary op _ => "unary " ++ op.name
  | .binary op _ _ => "binary '" ++ op.symbol ++ "'"
  | .computation name _ => "computation '" ++ name ++ "'"
  | .reference path => "path " ++ path.text
  | .objective name _ => "objective '" ++ name ++ "'"
  | .constraint name _ => "constraint '" ++ name ++ "'"
  | .avoid name _ => "avoid function '" ++ name ++ "'"
  | .constructor kind _ => "inline " ++ kind ++ " constructor"
  | .layering below above => "layering " ++ below.text ++ " below " ++ above.text
  | .list _ => "list literal"
  | .element path index =>
    "list access " ++ path.text ++ "[" ++ toString index.toInt ++ "]"

end Expr

/-- Whether a call is minimized or penalized. -/
inductive Role where
  | objective
  | constraint
  deriving DecidableEq

def Role.text : Role → String
  | .objective => "objective"
  | .constraint => "constraint"

/-- A scored function with its symbolic arguments. -/
structure Call where
  role : Role
  name : String
  arguments : List Expr

end DiagramEnergy
