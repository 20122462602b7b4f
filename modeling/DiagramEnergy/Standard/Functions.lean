import DiagramEnergy.Registry
import DiagramEnergy.Shape.Geometry
import DiagramEnergy.Standard.Arguments

/-!
# The standard functions

Computations on floats and shapes, objectives that draw shapes together or
apart, and constraints.  A constraint measures by how much it is violated and
scores the square of that; it scores zero where it holds.
-/

namespace DiagramEnergy.Standard

variable {σ N : Type} [Scalar N]

/-! ## Computations -/

def number (value : N) : Evaluated N := .plain (.float value)

def abs (arguments : List (Evaluated N)) : Except Error (Evaluated N) := do
  let operand ← oneFloat "abs" arguments
  return number (Scalar.abs operand)

def sqrt (arguments : List (Evaluated N)) : Except Error (Evaluated N) := do
  let operand ← oneFloat "sqrt" arguments
  if Scalar.value operand < 0 then
    .error (.typeMismatch "sqrt" (.negativeArgument (Scalar.value operand)))
  else return number (Scalar.sqrt operand)

def max (arguments : List (Evaluated N)) : Except Error (Evaluated N) := do
  let (first, second) ← twoFloats "max" arguments
  return number (Scalar.max first second)

def min (arguments : List (Evaluated N)) : Except Error (Evaluated N) := do
  let (first, second) ← twoFloats "min" arguments
  return number (Scalar.min first second)

def sum : N → List (Evaluated N) → Except Error N
  | total, [] => .ok total
  | total, argument :: rest => do
    let operand ← argument.toFloat "average"
    sum (total + operand) rest

def average (arguments : List (Evaluated N)) : Except Error (Evaluated N) :=
  if arguments.isEmpty then .error (.arity "average" 1 0)
  else do
    let total ← sum Scalar.zero arguments
    return number (total / Scalar.ofFloat (Float.ofNat arguments.length))

def norm (arguments : List (Evaluated N)) : Except Error (Evaluated N) := do
  let (x, y) ← twoFloats "norm" arguments
  return number (Scalar.sqrt (x * x + y * y))

def centerX (arguments : List (Evaluated N)) : Except Error (Evaluated N) := do
  let shape ← oneShape "centerX" arguments
  let (x, _) ← shape.center
  return number x

def centerY (arguments : List (Evaluated N)) : Except Error (Evaluated N) := do
  let shape ← oneShape "centerY" arguments
  let (_, y) ← shape.center
  return number y

def computations : Computations σ N :=
  .ofList [("abs", .ofFunction abs), ("sqrt", .ofFunction sqrt), ("max", .ofFunction max),
    ("min", .ofFunction min), ("average", .ofFunction average), ("norm", .ofFunction norm),
    ("centerX", .ofFunction centerX), ("centerY", .ofFunction centerY)]

/-! ## Objectives -/

/-- The square of the distance between the centers of two shapes. -/
def near (function : String) : Score N := fun arguments => do
  let first ← shapeAt function arguments 0
  let second ← shapeAt function arguments 1
  first.squaredDistance second

def nearPoint : Score N := fun arguments => do
  let shape ← shapeAt "nearPoint" arguments 0
  let (centerX, centerY) ← shape.center
  let pointX ← floatAt "nearPoint" arguments 1
  let x := centerX - pointX
  let pointY ← floatAt "nearPoint" arguments 2
  let y := centerY - pointY
  return x * x + y * y

/-- Falls with the distance; two shapes with one center get a finite score. -/
def repel : Score N := fun arguments => do
  let distance ← near "repel" arguments
  return Scalar.ofFloat 1 / (distance + Scalar.ofFloat 1e-6)

def objectives : ScoreTable N where
  role := .objective
  functions := .ofList [("near", [.shape, .shape], near "near"),
    ("nearPoint", [.shape, .float, .float], nearPoint),
    ("repel", [.shape, .shape], repel),
    ("centerLabel", [.shape, .shape], near "centerLabel")]

/-! ## Constraints -/

/-- The least side that `minSize` accepts. -/
def minSide : Float := 20

/-- The greatest side that `maxSize` accepts. -/
def maxSide : Float := 250

/-- The score of a violation, which is none when it is not positive. -/
def penalty (violation : N) : N :=
  let excess := Scalar.max violation Scalar.zero
  excess * excess

def minSize : Score N := fun arguments => do
  let shape ← shapeAt "minSize" arguments 0
  let (smallest, _) ← shape.size
  return penalty (Scalar.ofFloat minSide - smallest)

def maxSize : Score N := fun arguments => do
  let shape ← shapeAt "maxSize" arguments 0
  let (_, largest) ← shape.size
  return penalty (largest - Scalar.ofFloat maxSide)

def contains : Score N := fun arguments => do
  let outer ← shapeAt "contains" arguments 0
  let inner ← shapeAt "contains" arguments 1
  let distance := Scalar.sqrt (← outer.squaredDistance inner)
  let innerExtent ← inner.extent
  let outerExtent ← outer.extent
  return penalty (distance + innerExtent - outerExtent)

def disjoint : Score N := fun arguments => do
  let first ← shapeAt "disjoint" arguments 0
  let second ← shapeAt "disjoint" arguments 1
  let distance := Scalar.sqrt (← first.squaredDistance second)
  let firstExtent ← first.extent
  let secondExtent ← second.extent
  return penalty (firstExtent + secondExtent - distance)

def smallerThan : Score N := fun arguments => do
  let first ← shapeAt "smallerThan" arguments 0
  let second ← shapeAt "smallerThan" arguments 1
  let firstExtent ← first.extent
  let secondExtent ← second.extent
  return penalty (firstExtent - secondExtent)

def constraints : ScoreTable N where
  role := .constraint
  functions := .ofList [("minSize", [.shape], minSize), ("maxSize", [.shape], maxSize),
    ("contains", [.shape, .shape], contains), ("disjoint", [.shape, .shape], disjoint),
    ("smallerThan", [.shape, .shape], smallerThan)]

def registries : Registries σ N := ⟨computations, objectives, constraints⟩

end DiagramEnergy.Standard
