import DiagramEnergy.Scalar
import DiagramEnergy.Value

/-!
# Where shapes are and how large they are

A shape lies at its center, or at the middle of its end points if it has none.
Its size is a radius, or a width and a height.
-/

namespace DiagramEnergy.Shape

variable {N : Type} [Scalar N]

def center (shape : Shape N) : Except Error (N × N) :=
  if shape.has "x" then do
    let x ← shape.float "x"
    let y ← shape.float "y"
    return (x, y)
  else do
    let half := Scalar.ofFloat 0.5
    let startX ← shape.float "startX"
    let endX ← shape.float "endX"
    let startY ← shape.float "startY"
    let endY ← shape.float "endY"
    return ((startX + endX) * half, (startY + endY) * half)

/-- The square of the distance between two centers. -/
def squaredDistance (first second : Shape N) : Except Error N := do
  let (firstX, firstY) ← first.center
  let (secondX, secondY) ← second.center
  let x := firstX - secondX
  let y := firstY - secondY
  return x * x + y * y

/-- The smallest and the largest side, which for a circle are its radius. -/
def size (shape : Shape N) : Except Error (N × N) :=
  if shape.has "r" then do
    let radius ← shape.float "r"
    return (radius, radius)
  else do
    let width ← shape.float "w"
    let height ← shape.float "h"
    return (Scalar.min width height, Scalar.max width height)

/-- How far a shape reaches from its center; one without a size is a point. -/
def extent (shape : Shape N) : Except Error N :=
  if shape.has "r" then shape.float "r"
  else if shape.has "w" && shape.has "h" then do
    let (_, largest) ← shape.size
    return largest * Scalar.ofFloat 0.5
  else return Scalar.zero

end DiagramEnergy.Shape
