import DiagramEnergy.Scalar
import DiagramEnergy.Value

/-!
# Operators

Operators work on two floats or on two integers, never on a mixture.  Integer
results are exact or an error: every operation is carried out without bounds
and then has to fit 64 bits.
-/

namespace DiagramEnergy

namespace Integer

def fits (exact : Int) : Bool :=
  decide (Int64.minValue.toInt ≤ exact ∧ exact ≤ Int64.maxValue.toInt)

/-- The 64-bit integer with an exact value. -/
def ofExact (context : String) (exact : Int) : Except Error Int64 :=
  if fits exact then .ok (.ofInt exact) else .error (.integerOverflow context)

def negate (operand : Int64) : Except Error Int64 :=
  ofExact ("-(" ++ toString operand.toInt ++ ")") (-operand.toInt)

/-- Exponents from this one on are refused whatever the base is. -/
def exponentBound : Int := Int.pow 2 32

/-- The power of a base, where exponents past 63 are only raised to for the bases
that stay in range. -/
def power (context : String) (base : Int) (exponent : Nat) : Except Error Int64 :=
  if exponentBound ≤ exponent then .error (.integerOverflow context)
  else if base = 0 ∨ base = 1 ∨ base = -1 then
    ofExact context (if exponent = 0 then 1 else if exponent % 2 = 0 then base * base else base)
  else if 64 ≤ exponent then .error (.integerOverflow context)
  else ofExact context (base.pow exponent)

def operate (op : BinaryOp) (left right : Int64) : Except Error Int64 :=
  let context :=
    toString left.toInt ++ " " ++ op.symbol ++ " " ++ toString right.toInt
  match op with
  | .add => ofExact context (left.toInt + right.toInt)
  | .subtract => ofExact context (left.toInt - right.toInt)
  | .multiply => ofExact context (left.toInt * right.toInt)
  | .divide =>
    if right.toInt = 0 then .error (.divisionByZero context)
    else ofExact context (left.toInt.tdiv right.toInt)
  | .power =>
    if right.toInt < 0 then .error (.typeMismatch context .negativeExponent)
    else power context left.toInt right.toInt.toNat

end Integer

variable {N : Type} [Scalar N]

def Scalar.operate (op : BinaryOp) (left right : N) : Except Error N :=
  match op with
  | .add => .ok (left + right)
  | .subtract => .ok (left - right)
  | .multiply => .ok (left * right)
  | .divide =>
    if Scalar.isZero right then
      .error (.divisionByZero (FloatStyle.operand.text (Scalar.value left) ++ " / " ++
        FloatStyle.operand.text (Scalar.value right)))
    else .ok (left / right)
  | .power => .ok (Scalar.pow left right)

def UnaryOp.apply (op : UnaryOp) (operand : Value N) : Except Error (Value N) :=
  match op, operand with
  | .plus, .float number => .ok (.float number)
  | .plus, .int number => .ok (.int number)
  | .minus, .float number => .ok (.float (-number))
  | .minus, .int number => .int <$> Integer.negate number
  | op, other =>
    .error (.typeMismatch ("unary " ++ op.name) (.expected "a number" other.label))

def BinaryOp.apply (op : BinaryOp) (left right : Value N) : Except Error (Value N) :=
  match left, right with
  | .float left, .float right => .float <$> Scalar.operate op left right
  | .int left, .int right => .int <$> Integer.operate op left right
  | left, right =>
    .error (.typeMismatch ("'" ++ op.symbol ++ "'") (.operands left.label right.label))

end DiagramEnergy
