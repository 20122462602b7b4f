import DiagramEnergy.Overrides
import DiagramEnergy.Table.Lemmas

/-!
# Overrides of paired paths

Overrides that pair paths with as many values answer for these paths only, and
for every path that occurs once with the value at its position.
-/

namespace DiagramEnergy

variable {N : Type}

namespace Overrides

variable {paths : List Path} {values : List N} {overrides : Overrides N}

theorem ofParts_eq_ok_iff :
    ofParts paths values = .ok overrides ↔
      paths.length = values.length ∧
        overrides = ⟨.ofList (paths.zip values)⟩ := by
  unfold ofParts
  by_cases sameLength : paths.length = values.length
  · simp [sameLength, eq_comm]
  · simp [sameLength]

theorem mem_zip_of_get? (paired : ofParts paths values = .ok overrides)
    {path : Path} {number : N} (overridden : overrides.get? path = some number) :
    (path, number) ∈ paths.zip values := by
  obtain ⟨-, rfl⟩ := ofParts_eq_ok_iff.1 paired
  exact Table.mem_of_get?_ofList overridden

theorem get?_of_mem_zip (paired : ofParts paths values = .ok overrides)
    (distinct : paths.Nodup) {path : Path} {number : N}
    (member : (path, number) ∈ paths.zip values) :
    overrides.get? path = some number := by
  obtain ⟨sameLength, rfl⟩ := ofParts_eq_ok_iff.1 paired
  apply Table.get?_ofList_of_mem _ member
  rw [List.map_fst_zip (Nat.le_of_eq sameLength)]
  exact distinct

end Overrides

end DiagramEnergy
