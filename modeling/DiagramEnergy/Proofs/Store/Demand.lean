import DiagramEnergy.Proofs.Store.Contents

/-!
# What a path asks for

Overrides answer first, then the content at the path, and then the outline of
the store: a field path may lead to a shape, and every other path leads nowhere.
-/

namespace DiagramEnergy

variable {N : Type}

namespace Store

/-- The error of a path without content. -/
def vacancy (store : Store N) (path : Path) : Error :=
  match store.objects.get? path.object with
  | none => .unknownObject path.object
  | some fields =>
      match fields.get? path.fieldName with
      | none => .unknownPath path.owner
      | some _ => .unknownPath path

/-- What the shape at a field path asks for. -/
def assembly (store : Store N) (path : Path) : Except Error (Demand N) :=
  match path, store.slot? path.object path.fieldName with
  | .field _ _, some (.shape kind properties) =>
      .ok (.assemble kind properties.keys)
  | _, _ => .error (store.vacancy path)

theorem demand_override {store : Store N} {overrides : Overrides N}
    {path : Path} {number : N} (overridden : overrides.get? path = some number) :
    store.demand overrides path = .ok (.ready (.float number)) := by
  simp only [demand, resolve, overridden]
  rfl

/-- Without an override, content counts before the outline. -/
theorem demand_of_not_overridden {store : Store N} {overrides : Overrides N}
    {path : Path} (free : overrides.get? path = none) :
    store.demand overrides path =
      match store.content? path with
      | some content => .ok (.ofContent content)
      | none => store.assembly path := by
  simp only [demand, resolve, free]
  rw [content?_eq_slot?]
  cases path with
  | field object name =>
      simp only [assembly, vacancy, lookup, field, fieldsOf, slot?, Path.object,
        Path.fieldName, Functor.map, Except.map, Bind.bind, Except.bind]
      cases store.objects.get? object with
      | none => rfl
      | some fields =>
          simp only [Option.bind_some]
          cases fields.get? name with
          | none => rfl
          | some slot => cases slot <;> rfl
  | property object name property =>
      simp only [assembly, vacancy, lookup, Store.property, field, fieldsOf,
        slot?, Path.object, Path.fieldName, Functor.map, Except.map, Bind.bind,
        Except.bind]
      cases store.objects.get? object with
      | none => rfl
      | some fields =>
          simp only [Option.bind_some]
          cases fields.get? name with
          | none => rfl
          | some slot =>
              cases slot with
              | scalar content => rfl
              | shape kind properties =>
                  simp only [Option.bind_some, Slot.contentAt]
                  cases properties.get? property <;> rfl

theorem demand_of_content {store : Store N} {overrides : Overrides N}
    {path : Path} {content : Content N} (free : overrides.get? path = none)
    (found : store.content? path = some content) :
    store.demand overrides path = .ok (.ofContent content) := by
  rw [demand_of_not_overridden free, found]

theorem vacancy_congr {left right : Store N} {path : Path}
    (outlines : left.outline = right.outline) :
    left.vacancy path = right.vacancy path := by
  have declared := isSome_object_of_outline outlines path.object
  have slots := slot?_outline outlines path.object path.fieldName
  simp only [slot?] at slots
  cases leftFields : left.objects.get? path.object with
  | none =>
      cases rightFields : right.objects.get? path.object with
      | none => simp only [vacancy, leftFields, rightFields]
      | some fields => simp [leftFields, rightFields] at declared
  | some leftTable =>
      cases rightFields : right.objects.get? path.object with
      | none => simp [leftFields, rightFields] at declared
      | some rightTable =>
          simp only [leftFields, rightFields, Option.bind_some] at slots
          simp only [vacancy, leftFields, rightFields]
          cases leftSlot : leftTable.get? path.fieldName <;>
            cases rightSlot : rightTable.get? path.fieldName <;>
            simp [leftSlot, rightSlot] at slots ⊢

theorem assembly_congr {left right : Store N} {path : Path}
    (outlines : left.outline = right.outline) :
    left.assembly path = right.assembly path := by
  have vacant : left.vacancy path = right.vacancy path :=
    vacancy_congr outlines
  have slots := slot?_outline outlines path.object path.fieldName
  cases path with
  | property object name property => simp only [assembly, vacant]
  | field object name =>
      simp only [assembly, Path.object, Path.fieldName] at slots ⊢
      rw [vacant]
      cases leftSlot : left.slot? object name with
      | none =>
          rw [leftSlot] at slots
          cases rightSlot : right.slot? object name with
          | none => rfl
          | some slot => simp [rightSlot] at slots
      | some leftFound =>
          cases rightSlot : right.slot? object name with
          | none => simp [leftSlot, rightSlot] at slots
          | some rightFound =>
              rw [leftSlot, rightSlot] at slots
              cases leftFound <;> cases rightFound <;>
                simp_all [Slot.outline]

/-- What a path asks for is settled by the outline and the content there. -/
theorem demand_congr {left right : Store N} {overrides : Overrides N}
    {path : Path} (outlines : left.outline = right.outline)
    (contents : left.content? path = right.content? path) :
    left.demand overrides path = right.demand overrides path := by
  cases overridden : overrides.get? path with
  | some number => rw [demand_override overridden, demand_override overridden]
  | none =>
      rw [demand_of_not_overridden overridden,
        demand_of_not_overridden overridden, contents,
        assembly_congr outlines]

theorem assembly_ne_ofContent {store : Store N} {path : Path}
    {content : Content N} : store.assembly path ≠ .ok (.ofContent content) := by
  intro same
  unfold assembly at same
  split at same <;> cases content <;> simp [Demand.ofContent] at same

theorem demand_evaluate_iff {store : Store N} {overrides : Overrides N}
    {path : Path} {expr : Expr} :
    store.demand overrides path = .ok (.evaluate expr) ↔
      overrides.get? path = none ∧
        store.content? path = some (.symbolic expr) := by
  constructor
  · intro asked
    cases overridden : overrides.get? path with
    | some number => simp [demand_override overridden] at asked
    | none =>
        refine ⟨rfl, ?_⟩
        rw [demand_of_not_overridden overridden] at asked
        cases found : store.content? path with
        | none =>
            rw [found] at asked
            have never : store.assembly path ≠ .ok (.ofContent (.symbolic expr)) :=
              assembly_ne_ofContent
            exact absurd asked never
        | some content =>
            rw [found] at asked
            cases content <;> simp_all [Demand.ofContent]
  · intro ⟨free, found⟩
    exact demand_of_content free found

theorem demand_ready_iff {store : Store N} {overrides : Overrides N}
    {path : Path} {value : Value N} :
    store.demand overrides path = .ok (.ready value) ↔
      (∃ number, overrides.get? path = some number ∧ value = .float number) ∨
        (overrides.get? path = none ∧
          store.content? path = some (.concrete value)) := by
  cases overridden : overrides.get? path with
  | some number =>
      simp [demand_override overridden, eq_comm]
  | none =>
      rw [demand_of_not_overridden overridden]
      cases found : store.content? path with
      | none =>
          have never : store.assembly path ≠ .ok (.ofContent (.concrete value)) :=
            assembly_ne_ofContent
          simp only [Demand.ofContent] at never
          simp [never]
      | some content => cases content <;> simp [Demand.ofContent]

theorem demand_assemble_iff {store : Store N} {overrides : Overrides N}
    {path : Path} {kind : String} {names : List String} :
    store.demand overrides path = .ok (.assemble kind names) ↔
      overrides.get? path = none ∧ path.isField = true ∧
        ∃ properties, store.slot? path.object path.fieldName =
          some (.shape kind properties) ∧ names = properties.keys := by
  cases overridden : overrides.get? path with
  | some number => simp [demand_override overridden]
  | none =>
      rw [demand_of_not_overridden overridden, content?_eq_slot?]
      cases path with
      | property object name property =>
          simp only [Path.object, Path.fieldName, Path.isField, assembly]
          cases (store.slot? object name).bind
              (Slot.contentAt (.property object name property)) with
          | none => simp
          | some content => cases content <;> simp [Demand.ofContent]
      | field object name =>
          simp only [Path.object, Path.fieldName, Path.isField, assembly]
          cases store.slot? object name with
          | none => simp
          | some slot =>
              cases slot with
              | scalar content =>
                  cases content <;> simp [Slot.contentAt, Demand.ofContent]
              | shape found properties =>
                  simp [Slot.contentAt, eq_comm, and_assoc]

end Store

end DiagramEnergy
