import DiagramEnergy.Scalar
import DiagramEnergy.Value

/-!
# Registered functions

Computations, objectives and constraints are called by name.  A computation may
keep a state of its own, of type `σ`, from call to call; it is pure when its
result never depends on that state and leaves it alone.  Objectives and
constraints score arguments that fit their signature.
-/

namespace DiagramEnergy

/-- A function from arguments to a value or a shape. -/
abbrev Computation (σ N : Type) :=
  List (Evaluated N) → ExceptT Error (StateM σ) (Evaluated N)

/-- The computation that only looks at its arguments. -/
def Computation.ofFunction {σ N : Type}
    (function : List (Evaluated N) → Except Error (Evaluated N)) : Computation σ N :=
  fun arguments => ExceptT.mk (pure (function arguments))

/-- Whether a computation only looks at its arguments. -/
def Computation.IsPure {σ N : Type} (computation : Computation σ N) : Prop :=
  ∃ function, computation = .ofFunction function

theorem Computation.isPure_ofFunction {σ N : Type}
    (function : List (Evaluated N) → Except Error (Evaluated N)) :
    (Computation.ofFunction function : Computation σ N).IsPure :=
  ⟨function, rfl⟩

/-- A function from arguments to a score. -/
abbrev Score (N : Type) := List (Evaluated N) → Except Error N

/-- What an argument has to be. -/
inductive ArgumentType where
  | float
  | shape
  | any
  deriving DecidableEq

namespace ArgumentType

variable {N : Type}

def accepts : ArgumentType → Evaluated N → Bool
  | .float, .plain (.float _) => true
  | .float, _ => false
  | .shape, .shaped _ => true
  | .shape, _ => false
  | .any, _ => true

def label : ArgumentType → String
  | .float => "float"
  | .shape => "shape"
  | .any => "any"

end ArgumentType

abbrev Signature := List ArgumentType

namespace Signature

variable {N : Type}

/-- Refuses the first argument, counted from `position`, of the wrong type. -/
def checkFrom (function : String) (position : Nat) :
    List (ArgumentType × Evaluated N) → Except Error Unit
  | [] => .ok ()
  | (wanted, argument) :: rest =>
    if wanted.accepts argument then checkFrom function (position + 1) rest
    else .error (.typeMismatch
      ("argument " ++ toString position ++ " of '" ++ function ++ "'")
      (.expected wanted.label argument.label))

/-- Compares the number of arguments first, and then their types in order. -/
def check (signature : Signature) (function : String) (arguments : List (Evaluated N)) :
    Except Error Unit :=
  if arguments.length = signature.length then
    checkFrom function 1 (signature.zip arguments)
  else
    .error (.arity ("arguments of '" ++ function ++ "'") signature.length arguments.length)

end Signature

abbrev Computations (σ N : Type) := Table String (Computation σ N)

/-- Whether all registered computations are pure. -/
def Computations.ArePure {σ N : Type} (computations : Computations σ N) : Prop :=
  ∀ name computation, computations.get? name = some computation → computation.IsPure

/-- The scored functions of one role. -/
structure ScoreTable (N : Type) where
  role : Role
  functions : Table String (Signature × Score N)

namespace ScoreTable

variable {N : Type}

def empty (role : Role) : ScoreTable N := ⟨role, .empty⟩

def names (scores : ScoreTable N) : List String := scores.functions.keys

def contains (scores : ScoreTable N) (name : String) : Bool :=
  scores.functions.contains name

def signature? (scores : ScoreTable N) (name : String) : Option Signature :=
  (scores.functions.get? name).map Prod.fst

/-- Registers a function in place of one with the same name. -/
def register (scores : ScoreTable N) (name : String) (signature : Signature)
    (score : Score N) : ScoreTable N :=
  { scores with functions := scores.functions.insert name (signature, score) }

/-- Checks the arguments of a function and scores them. -/
def call (scores : ScoreTable N) (name : String) (arguments : List (Evaluated N)) :
    Except Error N :=
  match scores.functions.get? name with
  | none => .error (.unknownFunction scores.role name)
  | some (signature, score) => do
    signature.check name arguments
    score arguments

end ScoreTable

/-- All functions that one diagram may use. -/
structure Registries (σ N : Type) where
  computations : Computations σ N
  objectives : ScoreTable N
  constraints : ScoreTable N

namespace Registries

variable {σ N : Type}

def empty : Registries σ N := ⟨.empty, .empty .objective, .empty .constraint⟩

def forRole (registries : Registries σ N) : Role → ScoreTable N
  | .objective => registries.objectives
  | .constraint => registries.constraints

def registerComputation (registries : Registries σ N) (name : String)
    (computation : Computation σ N) : Registries σ N :=
  { registries with computations := registries.computations.insert name computation }

end Registries

/-! ## Listings -/

/-- The quoted names between two brackets. -/
def listing (opening closing : String) (names : List String) : String :=
  opening ++ ", ".intercalate (names.map Text.quoted) ++ closing

def Computations.text {σ N : Type} (computations : Computations σ N) : String :=
  listing "\x7b" "\x7d" computations.keys

def Role.name : Role → String
  | .objective => "Objective"
  | .constraint => "Constraint"

def ScoreTable.text {N : Type} (scores : ScoreTable N) : String :=
  "FunctionRegistry \x7b role: " ++ scores.role.name ++ ", names: " ++
    listing "[" "]" scores.names ++ " \x7d"

end DiagramEnergy
