import DiagramEnergy.Catalog
import DiagramEnergy.Store

/-!
# What a store asks for

Read-only questions about a store: which paths vary, which properties are still
unset, which calls contribute to the energy, and where its shapes are.  Answers
come in the order of the store.  A shape of an unknown kind contributes nothing.
-/

namespace DiagramEnergy

/-- Evaluation sets this property of every shape, so it is never sampled. -/
def reservedProperty : String := "name"

/-- Whether an optimizer controls a property: it is numeric, layout does not fill
it in, and the shape leaves it out or marks it as free. -/
def PropertyDef.varies {N : Type} (definition : PropertyDef) (content : Option (Content N)) :
    Bool :=
  definition.isNumeric && !definition.pending && content.all Content.isVary

/-- Whether sampling alone provides a property. -/
def PropertyDef.isUninitialized {N : Type} (definition : PropertyDef) (name : String)
    (content : Option (Content N)) : Bool :=
  !definition.isNumeric && !definition.pending && name != reservedProperty && content.isNone

namespace Store

variable {N : Type} (store : Store N) (catalog : Catalog)

/-- The schema properties of a kind that `select` accepts. -/
def schemaPaths (select : String → PropertyDef → Bool) (object name kind : String) :
    List Path :=
  match catalog.get? kind with
  | none => []
  | some definition =>
    (definition.properties.entries.filter fun entry => select entry.1 entry.2).map
      fun entry => .property object name entry.1

/-- The paths that the optimizer controls. -/
def varyingPaths : List Path :=
  store.slots.flatMap fun (object, name, slot) =>
    match slot with
    | .scalar content => if content.isVary then [.field object name] else []
    | .shape kind properties =>
      schemaPaths catalog
        (fun property definition => definition.varies (properties.get? property))
        object name kind

/-- The properties without a number that have to be sampled. -/
def uninitializedPaths : List Path :=
  store.slots.flatMap fun (object, name, slot) =>
    match slot with
    | .scalar _ => []
    | .shape kind properties =>
      schemaPaths catalog
        (fun property definition =>
          definition.isUninitialized property (properties.get? property))
        object name kind

/-- The objectives and constraints that stand alone in a field. -/
def declaredCalls : List Call :=
  store.slots.filterMap fun (_, _, slot) =>
    match slot with
    | .scalar (.symbolic (.objective name arguments)) => some ⟨.objective, name, arguments⟩
    | .scalar (.symbolic (.constraint name arguments)) => some ⟨.constraint, name, arguments⟩
    | _ => none

/-- The avoided functions that stand alone in a field, with its path. -/
def avoidedCalls : List (String × Path) :=
  store.slots.filterMap fun (object, field, slot) =>
    match slot with
    | .scalar (.symbolic (.avoid name _)) => some (name, .field object field)
    | _ => none

/-- The calls that the kind of each shape brings along, objectives first. -/
def defaultCalls : List Call :=
  store.slots.flatMap fun (object, name, slot) =>
    match slot with
    | .scalar _ => []
    | .shape kind _ =>
      match catalog.get? kind with
      | none => []
      | some definition =>
        let own := [Expr.reference (.field object name)]
        definition.defaultObjectives.map (fun function => ⟨.objective, function, own⟩) ++
          definition.defaultConstraints.map fun function => ⟨.constraint, function, own⟩

def shapePaths : List Path :=
  store.slots.filterMap fun (object, name, slot) =>
    match slot with
    | .scalar _ => none
    | .shape _ _ => some (.field object name)

/-- The properties that the shapes of the store list. -/
def propertyPaths : List Path :=
  store.slots.flatMap fun (object, name, slot) =>
    match slot with
    | .scalar _ => []
    | .shape _ properties => properties.keys.map fun property => .property object name property

/-- The shapes whose kind is not in a catalog. -/
def unknownShapes : List (String × Path) :=
  store.slots.filterMap fun (object, name, slot) =>
    match slot with
    | .scalar _ => none
    | .shape kind _ => if catalog.contains kind then none else some (kind, .field object name)

end Store

end DiagramEnergy
