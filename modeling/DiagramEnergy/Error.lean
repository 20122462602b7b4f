import DiagramEnergy.Expr
import DiagramEnergy.Path.Grammar

/-!
# Errors

What can go wrong while a diagram is built, evaluated or assembled, as causes.
The wording of all of them is here.
-/

namespace DiagramEnergy

/-- Why a value does not fit where it stands. -/
inductive Mismatch where
  | expected (wanted found : String)
  | operands (left right : String)
  | negativeExponent
  | negativeArgument (value : Float)
  | missingProperty (kind name : String)
  | shapeInProperty (name : String)
  | varyingValue (found : String)
  deriving DecidableEq

def Mismatch.text : Mismatch → String
  | .expected wanted found => "expected " ++ wanted ++ ", found " ++ found
  | .operands left right =>
    "operands must both be float or both be int, found " ++ left ++ " and " ++ right
  | .negativeExponent => "integer power needs a non-negative exponent"
  | .negativeArgument value => "negative argument " ++ FloatStyle.plain.text value
  | .missingProperty kind name => kind ++ " has no property '" ++ name ++ "'"
  | .shapeInProperty name => "property evaluated to shape " ++ name
  | .varyingValue found => "varying value must be a float, found " ++ found

/-- Why a configuration or a catalog is refused. -/
inductive ConfigFault where
  | unreadableConfig
  | unreadableCatalog
  | canvas (width height : Float)
  | constraintWeight (value : Float)
  | initialPenaltyWeight (value : Float)
  | recursionLimit (highest value : Nat)
  | samplerType (kind property produced declared : String)
  | uniformRange (kind property : String) (low high : Float)
  | noOptions (kind property : String)
  | other (text : String)
  deriving DecidableEq

def ConfigFault.text : ConfigFault → String
  | .unreadableConfig => "invalid config"
  | .unreadableCatalog => "invalid shape catalog"
  | .canvas width height =>
    "canvas must have positive finite sides, got " ++ FloatStyle.plain.text width ++
      "x" ++ FloatStyle.plain.text height
  | .constraintWeight value =>
    "constraint_weight must be positive, got " ++ FloatStyle.plain.text value
  | .initialPenaltyWeight value =>
    "initial_penalty_weight must be positive, got " ++ FloatStyle.plain.text value
  | .recursionLimit highest value =>
    "recursion_limit must be between 1 and " ++ toString highest ++
      ", got " ++ toString value
  | .samplerType kind property produced declared =>
    kind ++ "." ++ property ++ ": sampler produces " ++ produced ++
      " but the property is " ++ declared
  | .uniformRange kind property low high =>
    kind ++ "." ++ property ++ ": uniform range [" ++ FloatStyle.plain.text low ++ ", " ++
      FloatStyle.plain.text high ++ "] is invalid"
  | .noOptions kind property =>
    kind ++ "." ++ property ++ ": choice sampler has no options"
  | .other text => text

inductive Error where
  | unknownObject (name : String)
  | duplicatePath (path : Path)
  | unknownPath (path : Path)
  | arity (context : String) (expected found : Nat)
  | typeMismatch (context : String) (mismatch : Mismatch)
  | divisionByZero (context : String)
  | integerOverflow (context : String)
  | unknownComputation (name : String)
  | unknownFunction (role : Role) (name : String)
  | unknownShape (kind : String) (path : Path)
  | unsupported (description : String)
  | recursionLimit (limit : Nat) (context : String)
  | nothingVaries
  | pathSyntax (error : SyntaxError)
  | config (fault : ConfigFault)
  deriving DecidableEq

def Error.text : Error → String
  | .unknownObject name => "unknown object '" ++ name ++ "'"
  | .duplicatePath path => "path '" ++ path.text ++ "' is already bound"
  | .unknownPath path => "no slot at path '" ++ path.text ++ "'"
  | .arity context expected found =>
    context ++ ": expected " ++ toString expected ++ " values, found " ++ toString found
  | .typeMismatch context mismatch =>
    "type mismatch in " ++ context ++ ": " ++ mismatch.text
  | .divisionByZero context => "division by zero in " ++ context
  | .integerOverflow context => "integer overflow in " ++ context
  | .unknownComputation name => "unknown computation '" ++ name ++ "'"
  | .unknownFunction role name => "unknown " ++ role.text ++ " function '" ++ name ++ "'"
  | .unknownShape kind path => "unknown shape type '" ++ kind ++ "' at '" ++ path.text ++ "'"
  | .unsupported description => "unsupported expression: " ++ description
  | .recursionLimit limit context =>
    "recursion limit of " ++ toString limit ++ " exceeded while evaluating " ++ context
  | .nothingVaries => "translation has no varying parameters"
  | .pathSyntax error => error.text
  | .config fault => "config error: " ++ fault.text

end DiagramEnergy
