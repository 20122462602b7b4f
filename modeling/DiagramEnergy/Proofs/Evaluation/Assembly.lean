import DiagramEnergy.Proofs.Evaluation.Adequacy

/-!
# What an evaluated shape holds

The shape at a field is named after the field, and every property with another
name holds what its path evaluates to.  An override of a property therefore
shows in the shape, unless the property has the reserved name.
-/

namespace DiagramEnergy

variable {σ N : Type}

namespace Shape

theorem get?_assembled_of_ne {path : Path} {kind name : String}
    {values : List (String × Value N)} (different : name ≠ "name") :
    (assembled path kind values).get? name =
      (Table.ofList values).get? name := by
  simp only [assembled, get?, Table.get?_insert, if_neg different]

theorem name_assembled (path : Path) (kind : String)
    (values : List (String × Value N)) :
    (assembled path kind values).name = path.owner.text := by
  simp only [assembled, name, Table.get?_insert_self]

end Shape

namespace ByName

variable [Scalar N] {computations : Computations σ N} {store : Store N}
  {overrides : Overrides N}

/-- The properties that a shape is assembled from. -/
theorem EvaluatesProperties.values {path : Path} {names : List String}
    {outcome : Except Error (List (String × Value N))}
    (evaluation : EvaluatesProperties computations store overrides path names
      outcome) {values : List (String × Value N)}
    (succeeded : outcome = .ok values) :
    values.map Prod.fst = names ∧ ∀ entry ∈ values,
      Evaluates computations store overrides
        (.reference (.property path.object path.fieldName entry.1))
        (.ok (.plain entry.2)) := by
  induction names generalizing outcome values with
  | nil =>
      cases evaluation with
      | empty =>
          cases succeeded
          exact ⟨rfl, by simp⟩
  | cons name names induction =>
      cases evaluation with
      | refused _ _ => cases succeeded
      | @property _ _ _ value rest first later =>
          cases rest with
          | error error => cases succeeded
          | ok restValues =>
              cases succeeded
              obtain ⟨sameNames, evaluated⟩ := induction later rfl
              refine ⟨by simp [sameNames], ?_⟩
              intro entry member
              rcases List.mem_cons.1 member with rfl | memberLater
              · exact first
              · exact evaluated entry memberLater

/-- A field with a shape evaluates to a shape that is assembled there. -/
theorem Evaluates.assembled {path : Path} {kind : String}
    {names : List String} {shape : Shape N}
    {outcome : Except Error (Evaluated N)} {expr : Expr}
    (evaluation : Evaluates computations store overrides expr outcome)
    (referred : expr = .reference path)
    (asked : store.demand overrides path = .ok (.assemble kind names))
    (succeeded : outcome = .ok (.shaped shape)) :
    ∃ values, shape = .assembled path kind values ∧
      EvaluatesProperties computations store overrides path names
        (.ok values) := by
  cases evaluation with
  | leaf leaf =>
      subst referred
      cases leaf
  | unary | left | binary | unregistered | computation => cases referred
  | missing missing =>
      cases referred
      rw [asked] at missing
      cases missing
  | ready ready =>
      cases referred
      rw [asked] at ready
      cases ready
  | slot symbolic _ =>
      cases referred
      rw [asked] at symbolic
      cases symbolic
  | @shape _ _ _ properties assembles evaluated =>
      cases referred
      rw [asked] at assembles
      cases assembles
      cases properties with
      | error error => cases succeeded
      | ok values =>
          cases succeeded
          exact ⟨values, rfl, evaluated⟩

/-- An overridden property with an ordinary name shows its number. -/
theorem get?_of_override [Nonempty σ] {object name kind property : String}
    {names : List String} {shape : Shape N} {number : N}
    (evaluation : Evaluates computations store overrides
      (.reference (.field object name)) (.ok (.shaped shape)))
    (asked : store.demand overrides (.field object name) =
      .ok (.assemble kind names))
    (listed : property ∈ names) (ordinary : property ≠ "name")
    (overridden : overrides.get? (.property object name property) =
      some number) :
    shape.get? property = some (.float number) := by
  obtain ⟨values, rfl, properties⟩ := evaluation.assembled rfl asked rfl
  obtain ⟨sameNames, evaluated⟩ := properties.values rfl
  rw [Shape.get?_assembled_of_ne ordinary]
  rw [← sameNames] at listed
  obtain ⟨value, bound⟩ := Table.isSome_get?_ofList listed
  have denotes := evaluated _ (Table.mem_of_get?_ofList bound)
  have shows : Evaluates computations store overrides
      (.reference (.property object name property))
      (.ok (.plain (.float number))) :=
    .ready (Store.demand_override overridden)
  have same := Evaluates.deterministic denotes shows
  cases same
  exact bound

end ByName

end DiagramEnergy
