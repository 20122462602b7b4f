/-!
# Scalars

The numbers that expressions, shapes and energies are made of.  A scalar has a
plain value and carries whatever else an optimizer wants to know, such as a
derivative.  All decisions about a scalar look at its plain value.
-/

namespace DiagramEnergy

class Scalar (N : Type) extends Add N, Sub N, Mul N, Div N, Neg N where
  ofFloat : Float → N
  value : N → Float
  pow : N → N → N
  sqrt : N → N
  abs : N → N
  zero : N := ofFloat 0
  isZero : N → Bool := fun number => value number == 0
  /-- The first operand unless the second one is larger. -/
  max : N → N → N := fun left right =>
    if value left ≥ value right then left else right
  /-- The first operand unless the second one is smaller. -/
  min : N → N → N := fun left right =>
    if value left ≤ value right then left else right

namespace Scalar

/-- The larger of two floats.  A value that is no number loses to one, and of two
equal operands the second one counts. -/
def maxFloat (left right : Float) : Float :=
  if right.isNaN then left else if left > right then left else right

/-- The smaller of two floats.  A value that is no number loses to one, and of two
equal operands the second one counts. -/
def minFloat (left right : Float) : Float :=
  if right.isNaN then left else if left < right then left else right

instance : Scalar Float where
  ofFloat number := number
  value number := number
  pow := Float.pow
  sqrt := Float.sqrt
  abs := Float.abs
  max := maxFloat
  min := minFloat

end Scalar

/-- A value together with its derivative along one direction. -/
structure Dual where
  value : Float
  slope : Float
  deriving DecidableEq

namespace Dual

def constant (value : Float) : Dual := ⟨value, 0⟩

def add (left right : Dual) : Dual :=
  ⟨left.value + right.value, left.slope + right.slope⟩

def sub (left right : Dual) : Dual :=
  ⟨left.value - right.value, left.slope - right.slope⟩

def mul (left right : Dual) : Dual :=
  ⟨left.value * right.value, left.slope * right.value + left.value * right.slope⟩

def div (left right : Dual) : Dual :=
  ⟨left.value / right.value,
    (left.slope * right.value - left.value * right.slope) / (right.value * right.value)⟩

def neg (number : Dual) : Dual := ⟨-number.value, -number.slope⟩

/-- A constant exponent contributes no logarithm, so that negative bases keep
their slope. -/
def pow (base exponent : Dual) : Dual :=
  let value := Float.pow base.value exponent.value
  let slope := exponent.value * Float.pow base.value (exponent.value - 1) * base.slope
  if exponent.slope != 0 then
    ⟨value, slope + value * Float.log base.value * exponent.slope⟩
  else ⟨value, slope⟩

def sqrt (number : Dual) : Dual :=
  let root := Float.sqrt number.value
  ⟨root, number.slope / (2 * root)⟩

def abs (number : Dual) : Dual :=
  if number.value < 0 then number.neg else number

instance : Scalar Dual where
  add := add
  sub := sub
  mul := mul
  div := div
  neg := neg
  ofFloat := constant
  value := value
  pow := pow
  sqrt := sqrt
  abs := abs

end Dual

end DiagramEnergy
