import DiagramEnergy.Evaluator.Entry
import DiagramEnergy.Json.Decoder
import DiagramEnergy.Json.Reader
import DiagramEnergy.Json.Writer

/-!
# Configuration

The settings of one run: the seed of its random draws, the canvas that initial
positions are drawn on, the weights of the energy, and the depth budget.
-/

namespace DiagramEnergy

structure Canvas where
  width : Float := 800
  height : Float := 700
  deriving DecidableEq

namespace Canvas

/-- The range that free fields are drawn from. -/
def coordinateRange (canvas : Canvas) : Float × Float :=
  let half := canvas.height / 2
  (-half, half)

def ofJson? (json : Json) : Option Canvas := do
  let standard : Canvas := {}
  match ← json.fields? ["width", "height"] with
  | [width, height] =>
    let width ← Json.optional? standard.width Json.toFloat? width
    let height ← Json.optional? standard.height Json.toFloat? height
    return ⟨width, height⟩
  | _ => none

def toJson (canvas : Canvas) : Json :=
  .record [("width", .float canvas.width), ("height", .float canvas.height)]

end Canvas

structure Config where
  seed : UInt64 := 16
  canvas : Canvas := {}
  /-- A constant factor of the constraint sum. -/
  constraintWeight : Float := 10000
  /-- The penalty weight that an assembled problem starts with. -/
  initialPenaltyWeight : Float := 0.001
  recursionLimit : Nat := 1000
  deriving DecidableEq

namespace Config

def isPositive (value : Float) : Bool := value.isFinite && value > 0

def validate (config : Config) : Except Error Unit :=
  if !isPositive config.canvas.width || !isPositive config.canvas.height then
    .error (.config (.canvas config.canvas.width config.canvas.height))
  else if !isPositive config.constraintWeight then
    .error (.config (.constraintWeight config.constraintWeight))
  else if !isPositive config.initialPenaltyWeight then
    .error (.config (.initialPenaltyWeight config.initialPenaltyWeight))
  else if config.recursionLimit = 0 ∨ Evaluator.maxLimit < config.recursionLimit then
    .error (.config (.recursionLimit Evaluator.maxLimit config.recursionLimit))
  else .ok ()

def ofJson? (json : Json) : Option Config := do
  let standard : Config := {}
  match ← json.fields? ["seed", "canvas", "constraint_weight", "initial_penalty_weight",
    "recursion_limit"] with
  | [seed, canvas, constraintWeight, initialPenaltyWeight, recursionLimit] =>
    let seed ← Json.optional? standard.seed.toNat Json.toNat? seed
    let canvas ← Json.optional? standard.canvas Canvas.ofJson? canvas
    let constraintWeight ←
      Json.optional? standard.constraintWeight Json.toFloat? constraintWeight
    let initialPenaltyWeight ←
      Json.optional? standard.initialPenaltyWeight Json.toFloat? initialPenaltyWeight
    let recursionLimit ←
      Json.optional? standard.recursionLimit Json.toNat? recursionLimit
    return ⟨.ofNat seed, canvas, constraintWeight, initialPenaltyWeight, recursionLimit⟩
  | _ => none

def toJson (config : Config) : Json :=
  .record [("seed", .number (.natural config.seed.toNat)),
    ("canvas", config.canvas.toJson),
    ("constraint_weight", .float config.constraintWeight),
    ("initial_penalty_weight", .float config.initialPenaltyWeight),
    ("recursion_limit", .number (.natural config.recursionLimit))]

/-- Reads a configuration and validates it. -/
def load (source : String) : Except Error Config :=
  match (Json.parse source).bind ofJson? with
  | none => .error (.config .unreadableConfig)
  | some config => do
    config.validate
    return config

def save (config : Config) : String := config.toJson.render

end Config

end DiagramEnergy
