import DiagramEnergy.Decimal.Style
import DiagramEnergy.Json

/-!
# What JSON numbers stand for

A number without fraction and exponent is an integer if it fits 64 bits.  All
others are floats: the leading digits that fit 64 bits, scaled once by a power
of ten.  Such a float can be off in its last bits when many digits are given.
-/

namespace DiagramEnergy

namespace JsonNumber

/-- The meaning of a number. -/
inductive Meaning where
  | natural (value : Nat)
  | negative (magnitude : Nat)
  | float (value : Float)
  deriving DecidableEq

def digitValue (digit : Char) : Nat := digit.toNat - '0'.toNat

/-- Takes over digits while the significand stays below `2 ^ 64`.  What is left
over does not count. -/
def absorb : Nat → List Char → Nat × List Char
  | significand, [] => (significand, [])
  | significand, digit :: rest =>
    let next := significand * 10 + digitValue digit
    if next < Nat.pow 2 64 then absorb next rest else (significand, digit :: rest)

def tenTo (power : Nat) : Float := Float.ofScientific 1 false power

/-- Scales by a power of ten; a result that is not finite is no number. -/
def scale (significand : Nat) (power : Int) : Option Float :=
  let start := (UInt64.ofNat significand).toFloat
  if significand = 0 then some 0
  else if 308 < power then none
  else if 0 ≤ power then
    let scaled := start * tenTo power.toNat
    if scaled.isInf then none else some scaled
  else if -308 ≤ power then some (start / tenTo (-power).toNat)
  else if -616 ≤ power then some (start / tenTo 308 / tenTo (-power - 308).toNat)
  else some 0

/-- Exponents are read up to 31 bits; larger ones only matter by their sign. -/
def applyExponent (significand : Nat) (power : Int) : Option (Bool × List Char) → Option Float
  | none => scale significand power
  | some (negative, digits) =>
    let exponent := digits.foldl (fun number digit => 10 * number + digitValue digit) 0
    if Nat.pow 2 31 ≤ exponent then
      if significand ≠ 0 ∧ !negative then none else some 0
    else scale significand (if negative then power - exponent else power + exponent)

def magnitude? (literal : JsonNumber) : Option Float :=
  let (whole, dropped) := absorb 0 literal.whole
  match literal.fraction with
  | none => applyExponent whole dropped.length literal.exponent
  | some digits =>
    let (significand, ignored) := absorb whole digits
    let power : Int := dropped.length - (digits.length - ignored.length : Nat)
    applyExponent significand power literal.exponent

def meaning? (literal : JsonNumber) : Option Meaning :=
  let asFloat := literal.magnitude?.map fun magnitude =>
    Meaning.float (if literal.negative then -magnitude else magnitude)
  match literal.fraction, literal.exponent, absorb 0 literal.whole with
  | none, none, (whole, []) =>
    if !literal.negative then some (.natural whole)
    else if whole = 0 ∨ Nat.pow 2 63 < whole then asFloat
    else some (.negative whole)
  | _, _, _ => asFloat

def natural (value : Nat) : JsonNumber := ⟨false, Nat.toDigits 10 value, none, none⟩

def integer (value : Int) : JsonNumber :=
  ⟨decide (value < 0), Nat.toDigits 10 value.natAbs, none, none⟩

/-- Floats have a fraction or an exponent, and an exponent outside the places
from hundred thousandths up to sixteen digits. -/
def style : FloatStyle where
  tie := .even
  isPositional place := -5 ≤ place ∧ place < 16
  wholeSuffix := ".0"

def ofLayout (negative : Bool) (layout : Layout) : JsonNumber where
  negative
  whole := layout.whole
  fraction :=
    if !layout.fraction.isEmpty then some layout.fraction
    else if layout.power.isNone then some ['0'] else none
  exponent := layout.power.map fun power =>
    (decide (power < 0), Nat.toDigits 10 power.natAbs)

end JsonNumber

namespace Json

/-- A float that is not finite has no number. -/
def float (value : Float) : Json :=
  match FloatParts.ofFloat value with
  | .finite negative significand exponent =>
    .number (.ofLayout negative (JsonNumber.style.layout significand exponent))
  | _ => .null

end Json

end DiagramEnergy
