import DiagramEnergy.Analysis
import DiagramEnergy.Config
import DiagramEnergy.Notice

/-!
# Sampling the initial state

Free fields are drawn from the canvas, and then the properties of shapes from
the samplers of their kind.  In each step all values are drawn before the first
one is written, so no draw depends on what another one was.
-/

namespace DiagramEnergy

/-- A store with sampled values, and the remarks about its making. -/
structure Sampled where
  store : Store Float
  notices : List Notice

namespace Sampling

/-- Writes values in order and lists the paths that cannot hold one. -/
def write (store : Store Float) : List (Path × Value Float) → Store Float × List Path
  | [] => (store, [])
  | (path, value) :: rest =>
    match store.setValue? path value with
    | some written => write written rest
    | none =>
      let (written, refused) := write store rest
      (written, path :: refused)

def drawField (canvas : Canvas) (path : Path) : Random (Path × Value Float) := do
  let (low, high) := canvas.coordinateRange
  return (path, .float (← Random.between low high))

/-- Draws every field among the paths. -/
def fields (store : Store Float) (paths : List Path) (canvas : Canvas) : Random Sampled := do
  let drawn ← (paths.filter Path.isField).mapM (drawField canvas)
  let (written, refused) := write store drawn
  return ⟨written, refused.map .sampleDropped⟩

/-- Whether a property is sampled: the shape leaves it out and layout does not
fill it in, or the shape marks it as free. -/
def wants (definition : PropertyDef) (name : String) (content : Option (Content Float)) :
    Bool :=
  name != reservedProperty &&
    match content with
    | none => !definition.pending
    | some content => content.isVary

/-- The properties that are sampled, with their samplers. -/
def targets (store : Store Float) (catalog : Catalog) : List (Path × Sampler) :=
  store.slots.flatMap fun (object, name, slot) =>
    match slot with
    | .scalar _ => []
    | .shape kind properties =>
      match catalog.get? kind with
      | none => []
      | some definition =>
        (definition.properties.entries.filter fun entry =>
          wants entry.2 entry.1 (properties.get? entry.1)).map
          fun entry => (.property object name entry.1, entry.2.sampler)

def drawProperty (target : Path × Sampler) : Random (Path × Value Float) := do
  return (target.1, ← target.2.sample)

/-- Draws the properties of all shapes that want a sample. -/
def shapes (store : Store Float) (catalog : Catalog) : Random Sampled := do
  let skipped := (store.unknownShapes catalog).map fun (kind, path) =>
    Notice.shapeNotSampled path kind
  let drawn ← (targets store catalog).mapM drawProperty
  let (written, refused) := write store drawn
  return ⟨written, skipped ++ refused.map .propertyNotSampled⟩

end Sampling

end DiagramEnergy
