import DiagramEnergy.Energy
import DiagramEnergy.Phase
import DiagramEnergy.Sampling

/-!
# Optimization problems

A store becomes a problem when its free slots are sampled, its calls collected,
and its shapes evaluated once.  A problem keeps its shapes evaluated at its
current varying values.
-/

namespace DiagramEnergy

structure Problem (σ : Type) where
  /-- The shapes at the current varying values. -/
  shapes : List (Shape Float)
  shapeNames : List Path
  shapePropertyPaths : List Path
  store : Store Float
  varyingPaths : List Path
  /-- The properties without numbers that had to be sampled. -/
  uninitializedPaths : List Path
  /-- The current values of the varying paths, in the same order. -/
  varyingState : List Float
  objectives : List Call
  constraints : List Call
  penaltyWeight : Float
  phase : Phase
  energy : Energy σ Float
  generator : Generator

/-- A problem and the run that it is part of. -/
structure Stage (σ : Type) where
  problem : Problem σ
  run : RunState σ

/-- An action on a problem.  What it has changed stays changed when it fails. -/
abbrev Move (σ : Type) := EStateM Error (Stage σ)

/-- Carries out a run that looks at a problem. -/
def Move.look {σ α : Type} (view : Problem σ → Run σ α) : Move σ α := fun stage =>
  match view stage.problem stage.run with
  | .ok result run => .ok result { stage with run }
  | .error error run => .error error { stage with run }

namespace Problem

variable {σ : Type}

/-- The energy at some varying values and the current penalty weight. -/
def energyAt (problem : Problem σ) (values : List Float) : Run σ Float :=
  problem.energy.evaluate problem.penaltyWeight values

def shapesAt (problem : Problem σ) (values : List Float) : Run σ (List (Shape Float)) := do
  let overrides ← .ofExcept (Overrides.ofParts problem.varyingPaths values)
  let evaluator ← problem.energy.evaluator
  .evaluate problem.store (evaluator.evalShapes overrides problem.shapeNames)

/-- Moves to other varying values, if all shapes can be evaluated there. -/
def setVarying (values : List Float) : Move σ Unit := do
  let shapes ← .look (·.shapesAt values)
  modify fun stage =>
    { stage with problem := { stage.problem with shapes, varyingState := values } }

def varyingValue? (problem : Problem σ) (path : Path) : Option Float := do
  let index ← problem.varyingPaths.findIdx? (· == path)
  problem.varyingState[index]?

/-- Refuses a store with a shape whose kind is not in the catalog. -/
def checkKinds (store : Store Float) (catalog : Catalog) : Except Error Unit :=
  match store.unknownShapes catalog with
  | [] => .ok ()
  | (kind, path) :: _ => .error (.unknownShape kind path)

/-- Refuses a call whose function is not registered for its role. -/
def checkCall (registries : Registries σ Float) (call : Call) : Except Error Unit :=
  if (registries.forRole call.role).contains call.name then .ok ()
  else .error (.unknownFunction call.role call.name)

/-- The value of a varying path in a store whose shapes have been evaluated. -/
def initialValue (evaluated : Store Float) (path : Path) : Except Error Float :=
  match evaluated.value? path with
  | some (.float number) => .ok number
  | some other => .error (.typeMismatch path.text (.varyingValue other.label))
  | none => .error (.unknownPath path)

/-- Samples the free slots of a store. -/
def sample (store : Store Float) (catalog : Catalog) (config : Config)
    (varyingPaths : List Path) : Random Sampled := do
  let fields ← Sampling.fields store varyingPaths config.canvas
  let shapes ← Sampling.shapes fields.store catalog
  return ⟨shapes.store, fields.notices ++ shapes.notices⟩

/-- The declared and default calls of a store with a given role. -/
def callsOf (role : Role) (store : Store Float) (catalog : Catalog) : List Call :=
  (store.declaredCalls ++ store.defaultCalls catalog).filter fun call => call.role == role

/-- Notes the initial energy, which takes an evaluation of its own. -/
def noteInitialEnergy (energy : Energy σ Float) (config : Config) (values : List Float) :
    Run σ Unit := do
  match ← Run.attempt (energy.evaluate config.initialPenaltyWeight values) with
  | .ok value => .note (.initialEnergy value)
  | .error error => .note (.initialEnergyUnavailable error)

/-- Turns a store into a problem.  A run that shows debugging details also
evaluates the energy once. -/
def assemble (detail : Option Level) (store : Store Float) (catalog : Catalog)
    (registries : Registries σ Float) (config : Config) : Run σ (Problem σ) := do
  .ofExcept config.validate
  .ofExcept catalog.validate
  .ofExcept (checkKinds store catalog)
  let varyingPaths := store.varyingPaths catalog
  let uninitializedPaths := store.uninitializedPaths catalog
  .note (.analyzed varyingPaths.length uninitializedPaths.length)
  if varyingPaths.isEmpty then throw .nothingVaries
  let (sampled, generator) := (sample store catalog config varyingPaths).run ⟨config.seed⟩
  let store := sampled.store
  sampled.notices.forM .note
  store.avoidedCalls.forM fun (name, path) => .note (.avoidIgnored name path)
  let objectives := callsOf .objective store catalog
  let constraints := callsOf .constraint store catalog
  .ofExcept ((objectives ++ constraints).forM (checkCall registries))
  let energy ← Energy.compile store objectives constraints varyingPaths registries config
  let evaluator ← energy.evaluator
  let (shapes, evaluated) ← .pass store (evaluator.evalShapes .empty store.shapePaths)
  let shapes ← .ofExcept shapes
  let varyingState ← .ofExcept (varyingPaths.mapM (initialValue evaluated))
  if detail.any (·.shows .debug) then noteInitialEnergy energy config varyingState
  return {
    shapes
    shapeNames := store.shapePaths
    shapePropertyPaths := store.propertyPaths
    store
    varyingPaths
    uninitializedPaths
    varyingState
    objectives
    constraints
    penaltyWeight := config.initialPenaltyWeight
    phase := .newIteration
    energy
    generator }

end Problem

end DiagramEnergy
