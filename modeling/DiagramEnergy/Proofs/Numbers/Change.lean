import DiagramEnergy.Energy
import DiagramEnergy.Proofs.Store.Demand

/-!
# Changing the numbers

A map of numbers that carries the operations can be applied to everything that
is made of numbers: values, shapes, stores and overrides.  What a path asks for
in the changed store is the changed form of what it asked for, and caching
commutes with the change.
-/

namespace DiagramEnergy

variable {σ M N : Type}

namespace Scalar

/-- A map of numbers that carries all operations but the larger and the smaller
of two numbers. -/
structure CarriesOperations [Scalar N] [Scalar M] (change : N → M) : Prop where
  ofFloat : ∀ number, change (ofFloat number) = ofFloat number
  zero : change zero = zero
  add : ∀ left right, change (left + right) = change left + change right
  sub : ∀ left right, change (left - right) = change left - change right
  mul : ∀ left right, change (left * right) = change left * change right
  div : ∀ left right, change (left / right) = change left / change right
  neg : ∀ number, change (-number) = -change number
  pow : ∀ base exponent,
    change (pow base exponent) = pow (change base) (change exponent)
  sqrt : ∀ number, change (sqrt number) = sqrt (change number)
  abs : ∀ number, change (abs number) = abs (change number)

/-- Such a map that leaves the plain values as they are. -/
structure Carries [Scalar N] [Scalar M] (change : N → M) : Prop
    extends CarriesOperations change where
  value : ∀ number, value (change number) = value number
  isZero : ∀ number, isZero (change number) = isZero number

/-- A map of numbers that carries all operations. -/
structure IsHom [Scalar N] [Scalar M] (change : N → M) : Prop
    extends Carries change where
  max : ∀ left right, change (max left right) = max (change left) (change right)
  min : ∀ left right, change (min left right) = min (change left) (change right)

end Scalar

/-! ## Values and shapes -/

variable (change : N → M)

namespace Value

@[simp] theorem type_mapFloat (value : Value N) :
    (value.mapFloat change).type = value.type := by
  cases value <;> rfl

@[simp] theorem label_mapFloat (value : Value N) :
    (value.mapFloat change).label = value.label := by
  simp only [label, type_mapFloat]

theorem mapFloat_mapFloat {L : Type} (first : L → N) (value : Value L) :
    (value.mapFloat first).mapFloat change =
      value.mapFloat (change ∘ first) := by
  cases value <;> rfl

@[simp] theorem mapFloat_id (value : Value N) : value.mapFloat id = value := by
  cases value <;> rfl

end Value

namespace Shape

def mapFloat (shape : Shape N) : Shape M :=
  ⟨shape.kind, shape.properties.map (·.mapFloat change)⟩

variable (shape : Shape N) (property : String)

@[simp] theorem get?_mapFloat : (shape.mapFloat change).get? property =
    (shape.get? property).map (·.mapFloat change) := by
  simp only [get?, mapFloat, Table.get?_map]

@[simp] theorem has_mapFloat :
    (shape.mapFloat change).has property = shape.has property := by
  simp only [has, mapFloat, Table.contains, Table.get?_map, Option.isSome_map]

@[simp] theorem name_mapFloat : (shape.mapFloat change).name = shape.name := by
  simp only [name, mapFloat, Table.get?_map]
  cases shape.properties.get? "name" with
  | none => rfl
  | some value => cases value <;> rfl

@[simp] theorem float_mapFloat : (shape.mapFloat change).float property =
    change <$> shape.float property := by
  simp only [float, get?_mapFloat, name_mapFloat]
  cases shape.get? property with
  | none => rfl
  | some value => cases value <;> rfl

theorem mapFloat_mapFloat {L : Type} (first : L → N) (shape : Shape L) :
    (shape.mapFloat first).mapFloat change =
      shape.mapFloat (change ∘ first) := by
  simp only [mapFloat, Table.map_map, Function.comp_def,
    Value.mapFloat_mapFloat]

theorem mapFloat_assembled (path : Path) (kind : String)
    (values : List (String × Value N)) :
    (assembled path kind values).mapFloat change =
      assembled path kind (values.map fun entry =>
        (entry.1, entry.2.mapFloat change)) := by
  simp only [assembled, mapFloat, Table.map_insert, Table.map_ofList]
  rfl

end Shape

namespace Evaluated

def mapFloat : Evaluated N → Evaluated M
  | .plain value => .plain (value.mapFloat change)
  | .shaped shape => .shaped (shape.mapFloat change)

variable (result : Evaluated N) (context : String)

@[simp] theorem label_mapFloat :
    (result.mapFloat change).label = result.label := by
  cases result with
  | plain value => exact value.label_mapFloat change
  | shaped shape => rfl

@[simp] theorem toFloat_mapFloat : (result.mapFloat change).toFloat context =
    change <$> result.toFloat context := by
  cases result with
  | plain value => cases value <;> rfl
  | shaped shape => rfl

@[simp] theorem toShape_mapFloat : (result.mapFloat change).toShape context =
    Shape.mapFloat change <$> result.toShape context := by
  cases result with
  | plain value => cases value <;> rfl
  | shaped shape => rfl

@[simp] theorem toValue_mapFloat : (result.mapFloat change).toValue context =
    Value.mapFloat change <$> result.toValue context := by
  cases result with
  | plain value => rfl
  | shaped shape => simp only [mapFloat, toValue, Shape.name_mapFloat]; rfl

theorem mapFloat_mapFloat {L : Type} (first : L → N) (result : Evaluated L) :
    (result.mapFloat first).mapFloat change =
      result.mapFloat (change ∘ first) := by
  cases result with
  | plain value => exact congrArg plain (value.mapFloat_mapFloat change first)
  | shaped shape => exact congrArg shaped (shape.mapFloat_mapFloat change first)

end Evaluated

def EvaluatedCall.mapFloat (call : EvaluatedCall N) : EvaluatedCall M :=
  ⟨call.role, call.name, call.arguments.map (·.mapFloat change)⟩

def EnergyTerms.mapFloat (terms : EnergyTerms N) : EnergyTerms M :=
  ⟨change terms.objective, change terms.constraint⟩

/-! ## Overrides -/

namespace Overrides

def mapFloat (overrides : Overrides N) : Overrides M :=
  ⟨overrides.values.map change⟩

@[simp] theorem get?_mapFloat (overrides : Overrides N) (path : Path) :
    (overrides.mapFloat change).get? path =
      (overrides.get? path).map change := by
  simp only [get?, mapFloat, Table.get?_map]

theorem ofParts_map (paths : List Path) (values : List N) :
    ofParts paths (values.map change) =
      mapFloat change <$> ofParts paths values := by
  simp only [ofParts, List.length_map]
  split
  · simp only [Functor.map, Except.map, mapFloat, Table.map_ofList]
    rw [List.zip_map_right]
    rfl
  · rfl

end Overrides

/-! ## Stores -/

namespace Content

theorem mapFloat_mapFloat {L : Type} (first : L → N) (content : Content L) :
    (content.mapFloat first).mapFloat change =
      content.mapFloat (change ∘ first) := by
  cases content with
  | symbolic expr => rfl
  | concrete value =>
      exact congrArg concrete (value.mapFloat_mapFloat change first)

@[simp] theorem mapFloat_id (content : Content N) :
    content.mapFloat id = content := by
  cases content with
  | symbolic expr => rfl
  | concrete value => exact congrArg concrete value.mapFloat_id

theorem mapFloat_fill (value : Value N) (content : Content N) :
    (content.fill value).mapFloat change =
      (content.mapFloat change).fill (value.mapFloat change) := by
  cases content <;> rfl

end Content

namespace Slot

@[simp] theorem outline_mapFloat (slot : Slot N) :
    (slot.mapFloat change).outline = slot.outline := by
  cases slot with
  | scalar content => rfl
  | shape kind properties => simp only [mapFloat, outline, Table.keys_map]

@[simp] theorem contentAt_mapFloat (path : Path) (slot : Slot N) :
    (slot.mapFloat change).contentAt path =
      (slot.contentAt path).map (·.mapFloat change) := by
  cases path <;> cases slot <;> simp [mapFloat, contentAt]

theorem mapFloat_mapFloat {L : Type} (first : L → N) (slot : Slot L) :
    (slot.mapFloat first).mapFloat change =
      slot.mapFloat (change ∘ first) := by
  cases slot with
  | scalar content =>
      exact congrArg scalar (content.mapFloat_mapFloat change first)
  | shape kind properties =>
      simp only [mapFloat, Table.map_map, Function.comp_def,
        Content.mapFloat_mapFloat]

@[simp] theorem mapFloat_id (slot : Slot N) : slot.mapFloat id = slot := by
  cases slot with
  | scalar content => exact congrArg scalar content.mapFloat_id
  | shape kind properties =>
      simp only [mapFloat, Content.mapFloat_id]
      rw [Table.map_self]

end Slot

namespace Demand

def mapFloat : Demand N → Demand M
  | .ready value => .ready (value.mapFloat change)
  | .evaluate expr => .evaluate expr
  | .assemble kind names => .assemble kind names

theorem mapFloat_ofContent (content : Content N) :
    (ofContent content).mapFloat change =
      ofContent (content.mapFloat change) := by
  cases content <;> rfl

end Demand

namespace Store

variable (store : Store N)

theorem slot?_mapFloat (object name : String) :
    (store.mapFloat change).slot? object name =
      (store.slot? object name).map (·.mapFloat change) := by
  simp only [slot?, mapFloat, Table.get?_map]
  cases store.objects.get? object <;> simp

theorem content?_mapFloat (path : Path) :
    (store.mapFloat change).content? path =
      (store.content? path).map (·.mapFloat change) := by
  simp only [content?_eq_slot?, slot?_mapFloat]
  cases store.slot? path.object path.fieldName <;> simp

theorem outline_mapFloat : (store.mapFloat change).outline = store.outline := by
  simp only [outline, mapFloat, Table.map_map, Slot.outline_mapFloat]

theorem vacancy_mapFloat (path : Path) :
    (store.mapFloat change).vacancy path = store.vacancy path := by
  simp only [vacancy, mapFloat, Table.get?_map]
  cases store.objects.get? path.object with
  | none => rfl
  | some fields =>
      simp only [Option.map_some, Table.get?_map]
      cases fields.get? path.fieldName <;> rfl

theorem assembly_mapFloat (path : Path) :
    (store.mapFloat change).assembly path =
      Demand.mapFloat change <$> store.assembly path := by
  cases path with
  | property object name property =>
      simp only [assembly, vacancy_mapFloat]
      rfl
  | field object name =>
      simp only [assembly, vacancy_mapFloat, slot?_mapFloat, Path.object,
        Path.fieldName]
      cases store.slot? object name with
      | none => rfl
      | some slot =>
          cases slot with
          | scalar content => rfl
          | shape kind properties =>
              simp only [Option.map_some, Slot.mapFloat, Table.keys_map]
              rfl

/-- A path asks the changed store for the changed form of its demand. -/
theorem demand_mapFloat (overrides : Overrides N) (path : Path) :
    (store.mapFloat change).demand (overrides.mapFloat change) path =
      Demand.mapFloat change <$> store.demand overrides path := by
  cases overridden : overrides.get? path with
  | some number =>
      have changed : (overrides.mapFloat change).get? path =
          some (change number) := by
        rw [Overrides.get?_mapFloat, overridden, Option.map_some]
      rw [demand_override overridden, demand_override changed]
      rfl
  | none =>
      have free : (overrides.mapFloat change).get? path = none := by
        rw [Overrides.get?_mapFloat, overridden, Option.map_none]
      rw [demand_of_not_overridden overridden, demand_of_not_overridden free,
        content?_mapFloat]
      cases store.content? path with
      | none => exact store.assembly_mapFloat change path
      | some content =>
          have same := Demand.mapFloat_ofContent change content
          exact congrArg Except.ok same.symm

theorem mapFloat_cacheValue (path : Path) (value : Value N) :
    (store.cacheValue path value).mapFloat change =
      (store.mapFloat change).cacheValue path (value.mapFloat change) := by
  apply ext_content?
  · rw [outline_mapFloat, outline_cacheValue, outline_cacheValue,
      outline_mapFloat]
  · intro other
    rw [content?_mapFloat, content?_cacheValue, content?_cacheValue,
      content?_mapFloat, content?_mapFloat]
    split
    · cases store.content? path with
      | none => rfl
      | some content =>
          exact congrArg some (content.mapFloat_fill change value)
    · rfl

theorem mapFloat_mapFloat {L : Type} (first : L → N) (store : Store L) :
    (store.mapFloat first).mapFloat change =
      store.mapFloat (change ∘ first) := by
  simp only [mapFloat, Table.map_map, Function.comp_def,
    Slot.mapFloat_mapFloat]

@[simp] theorem mapFloat_id : store.mapFloat id = store := by
  simp only [mapFloat, Slot.mapFloat_id, Table.map_self]

/-- Changed numbers that were lifted are lifted into the new type. -/
theorem mapFloat_lift [Scalar N] [Scalar M] (store : Store Float)
    (carries : ∀ number : Float,
      change (Scalar.ofFloat number) = Scalar.ofFloat number) :
    (store.lift : Store N).mapFloat change = store.lift := by
  have same : change ∘ Scalar.ofFloat = (Scalar.ofFloat : Float → M) :=
    funext carries
  rw [lift, mapFloat_mapFloat, same]
  rfl

end Store

end DiagramEnergy
