/-!
# Outcomes

Rules for actions that either have a result or an error, and nothing else.
-/

namespace DiagramEnergy.Except

variable {ε α β γ δ : Type}

/-- A sequence has a result just if both of its steps have one. -/
theorem bind_eq_ok {first : Except ε α} {next : α → Except ε β} {result : β} :
    (first >>= next) = .ok result ↔
      ∃ value, first = .ok value ∧ next value = .ok result := by
  cases first <;> simp [bind, Except.bind]

theorem mapM_map {convert : α → β} {turn : γ → δ} {first : α → Except ε γ}
    {second : β → Except ε δ}
    (each : ∀ item, second (convert item) = turn <$> first item)
    (items : List α) :
    (items.map convert).mapM second = List.map turn <$> items.mapM first := by
  induction items with
  | nil => rfl
  | cons item items induction =>
      simp only [List.map_cons, List.mapM_cons, each, induction, map_bind,
        bind_map_left, map_pure]

theorem forM_eq_ok {check : α → Except ε Unit} {items : List α}
    (passed : ∀ item ∈ items, check item = .ok ()) :
    items.forM check = .ok () := by
  induction items with
  | nil => rfl
  | cons item items induction =>
      rw [show (item :: items).forM check =
        (check item >>= fun _ => items.forM check) from rfl,
        passed item (by simp)]
      exact induction fun other member => passed other (by simp [member])

theorem exists_mapM_eq_ok {action : α → Except ε β} {items : List α}
    (each : ∀ item ∈ items, ∃ result, action item = .ok result) :
    ∃ results, items.mapM action = .ok results := by
  induction items with
  | nil => exact ⟨[], rfl⟩
  | cons item items induction =>
      obtain ⟨result, first⟩ := each item (by simp)
      obtain ⟨results, rest⟩ :=
        induction fun other member => each other (by simp [member])
      refine ⟨result :: results, ?_⟩
      rw [List.mapM_cons, first, rest]
      rfl

end DiagramEnergy.Except
