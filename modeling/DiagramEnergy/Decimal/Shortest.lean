/-!
# The shortest decimal of a float

A positive float `significand * 2 ^ exponent` stands for the interval of reals
that round to it.  Among the decimals of that interval the shortest are those
with the fewest digits, and of these the one nearest to the float is chosen.
All comparisons are made exactly, in natural numbers.
-/

namespace DiagramEnergy

/-- A float, taken apart. -/
inductive FloatParts where
  | notANumber
  | infinite (negative : Bool)
  | finite (negative : Bool) (significand : Nat) (exponent : Int)
  deriving DecidableEq

/-- Reads sign, exponent and fraction out of the 64 bits of a float. -/
def FloatParts.ofBits (bits : Nat) : FloatParts :=
  let negative := decide (bits / Nat.pow 2 63 = 1)
  let biased : Nat := bits / Nat.pow 2 52 % Nat.pow 2 11
  let fraction := bits % Nat.pow 2 52
  if biased = Nat.pow 2 11 - 1 then
    if fraction = 0 then .infinite negative else .notANumber
  else if biased = 0 then .finite negative fraction (-1074)
  else .finite negative (Nat.pow 2 52 + fraction) ((biased : Int) - 1075)

def FloatParts.ofFloat (value : Float) : FloatParts := ofBits value.toBits.toNat

/-- The decimal number `digits * 10 ^ exponent`. -/
structure Decimal where
  digits : Nat
  exponent : Int
  deriving DecidableEq

namespace Decimal

/-- Which of two equally near decimals is taken. -/
inductive Tie where
  | up
  | even
  deriving DecidableEq

/-- The multiple of `10 ^ scale` that stands for `significand * 2 ^ exponent`,
if there is one.  The gap to the float below a power of two is half as wide as
the gap above it. -/
def onGrid (tie : Tie) (significand : Nat) (exponent scale : Int) : Option Nat :=
  let unit := Nat.pow 10 scale.toNat * Nat.pow 2 (2 - exponent).toNat
  let frame := Nat.pow 2 (exponent - 2).toNat * Nat.pow 10 (-scale).toNat
  let value := 4 * significand * frame
  let gapBelow := if significand = Nat.pow 2 52 ∧ -1074 < exponent then 1 else 2
  let low := (4 * significand - gapBelow) * frame
  let high := (4 * significand + 2) * frame
  let below := value / unit
  let above := below + 1
  let closed := significand % 2 = 0
  let belowFits := low < below * unit ∨ closed ∧ low = below * unit
  let aboveFits := above * unit < high ∨ closed ∧ above * unit = high
  if belowFits then
    if aboveFits then
      match compare (2 * value) (below * unit + above * unit), tie with
      | .lt, _ => some below
      | .gt, _ => some above
      | .eq, .up => some above
      | .eq, .even => some (if below % 2 = 0 then below else above)
    else some below
  else if aboveFits then some above
  else none

/-- The least `magnitude` for which `significand * 2 ^ exponent` lies below
`10 ^ magnitude`. -/
def magnitude (significand : Nat) (exponent : Int) : Int :=
  let numerator := significand * Nat.pow 2 exponent.toNat
  let denominator := Nat.pow 2 (-exponent).toNat
  if denominator ≤ numerator then
    (Nat.toDigits 10 (numerator / denominator)).length
  else
    let reciprocal : Int := (Nat.toDigits 10 (denominator / numerator)).length
    if numerator * Nat.pow 10 (reciprocal - 1).toNat = denominator then 2 - reciprocal
    else 1 - reciprocal

/-- Moves trailing zeros of the digits into the exponent. -/
def trim : Nat → Nat → Int → Decimal
  | 0, digits, exponent => ⟨digits, exponent⟩
  | fuel + 1, digits, exponent =>
    if digits ≠ 0 ∧ digits % 10 = 0 then trim fuel (digits / 10) (exponent + 1)
    else ⟨digits, exponent⟩

/-- Seventeen digits suffice for every float; past them the value itself would
be written out. -/
def shortest (tie : Tie) (significand : Nat) (exponent : Int) : Decimal :=
  let top := magnitude significand exponent
  let found := (List.range 17).findSome? fun (count : Nat) =>
    let scale := top - (count + 1 : Nat)
    (onGrid tie significand exponent scale).map fun digits => (digits, scale)
  match found with
  | some (digits, scale) => trim 18 digits scale
  | none => ⟨significand * Nat.pow 2 exponent.toNat * Nat.pow 5 (-exponent).toNat, min exponent 0⟩

end Decimal

end DiagramEnergy
