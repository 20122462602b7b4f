import DiagramEnergy.Decimal.Shortest

/-!
# Written floats

The digits of a float are its shortest decimal.  They are laid out with or
without an exponent, and a style says which magnitudes take one and what stands
for the values that have no digits.
-/

namespace DiagramEnergy

/-- The digits before and after the point, and a power of ten that may follow. -/
structure Layout where
  whole : List Char
  fraction : List Char
  power : Option Int
  deriving DecidableEq

namespace Layout

def zero : Layout := ⟨['0'], [], none⟩

/-- The digits of a decimal without an exponent. -/
def positional (digits : List Char) (exponent : Int) : Layout :=
  let place := exponent + digits.length
  if 0 ≤ exponent then ⟨digits ++ List.replicate exponent.toNat '0', [], none⟩
  else if 0 < place then ⟨digits.take place.toNat, digits.drop place.toNat, none⟩
  else ⟨['0'], List.replicate (-place).toNat '0' ++ digits, none⟩

/-- One digit before the point, and an exponent. -/
def scientific (digits : List Char) (exponent : Int) : Layout :=
  ⟨digits.take 1, digits.drop 1, some (exponent + digits.length - 1)⟩

/-- Lays a decimal out, without an exponent if its leading digit stands in one of
the positional places. -/
def ofDecimal (isPositional : Int → Bool) (decimal : Decimal) : Layout :=
  let digits := Nat.toDigits 10 decimal.digits
  if isPositional (decimal.exponent + digits.length - 1) then
    positional digits decimal.exponent
  else scientific digits decimal.exponent

end Layout

structure FloatStyle where
  tie : Decimal.Tie
  /-- Whether a leading digit in this place needs no exponent. -/
  isPositional : Int → Bool
  /-- What follows a whole number without an exponent. -/
  wholeSuffix : String

namespace FloatStyle

def layout (style : FloatStyle) (significand : Nat) (exponent : Int) : Layout :=
  if significand = 0 then .zero
  else .ofDecimal style.isPositional (.shortest style.tie significand exponent)

def layoutText (style : FloatStyle) (layout : Layout) : String :=
  String.ofList layout.whole ++
    (if layout.fraction.isEmpty then
      if layout.power.isNone then style.wholeSuffix else ""
    else "." ++ String.ofList layout.fraction) ++
    match layout.power with
    | none => ""
    | some power => "e" ++ toString power

def partsText (style : FloatStyle) : FloatParts → String
  | .notANumber => "NaN"
  | .infinite negative => if negative then "-inf" else "inf"
  | .finite negative significand exponent =>
    (if negative then "-" else "") ++ style.layoutText (style.layout significand exponent)

def text (style : FloatStyle) (value : Float) : String :=
  style.partsText (.ofFloat value)

/-- Messages write floats without exponents, and whole ones without a point. -/
def plain : FloatStyle where
  tie := .up
  isPositional _ := true
  wholeSuffix := ""

/-- Operands have a point, and an exponent outside the places from ten thousandths
up to sixteen digits. -/
def operand : FloatStyle where
  tie := .up
  isPositional place := -4 ≤ place ∧ place < 16
  wholeSuffix := ".0"

end FloatStyle

end DiagramEnergy
