import DiagramEnergy.Proofs.Analysis

/-!
# The order of the store

The slots of a store are listed in increasing order of their names.  The list of
names is therefore determined by which slots there are, and two stores with the
same names list whatever they have in their slots in the same order.
-/

namespace DiagramEnergy

variable {N : Type}

namespace Store

/-- The objects and names of all slots, in the order of the store. -/
def slotNames (store : Store N) : List (String × String) :=
  store.slots.map fun entry => (entry.1, entry.2.1)

theorem mem_slotNames_iff {store : Store N} {names : String × String} :
    names ∈ store.slotNames ↔ (store.slot? names.1 names.2).isSome := by
  obtain ⟨object, name⟩ := names
  simp only [slotNames, List.mem_map, Prod.exists, Prod.mk.injEq,
    mem_slots_iff, Option.isSome_iff_exists]
  constructor
  · rintro ⟨_, _, slot, found, rfl, rfl⟩
    exact ⟨slot, found⟩
  · rintro ⟨slot, found⟩
    exact ⟨object, name, slot, found, rfl, rfl⟩

/-- One slot stands before another one. -/
def Precedes (earlier later : String × String) : Prop :=
  compare earlier.1 later.1 = .lt ∨
    earlier.1 = later.1 ∧ compare earlier.2 later.2 = .lt

theorem slotNames_increasing (store : Store N) :
    store.slotNames.Pairwise Precedes := by
  rw [slotNames, List.pairwise_map, slots, List.pairwise_flatMap]
  constructor
  · rintro ⟨object, fields⟩ _
    rw [List.pairwise_map]
    exact fields.increasing.imp fun smaller => .inr ⟨rfl, smaller⟩
  · apply store.objects.increasing.imp
    intro left right smaller
    simp only [List.mem_map]
    rintro _ ⟨leftField, _, rfl⟩ _ ⟨rightField, _, rfl⟩
    exact .inl smaller

theorem not_precedes_both {left right : String × String}
    (forth : Precedes left right) : ¬ Precedes right left := by
  intro back
  rcases forth with smaller | ⟨same, smaller⟩
  · rcases back with larger | ⟨same, -⟩
    · exact absurd (Std.OrientedCmp.gt_of_lt larger) (by rw [smaller]; decide)
    · rw [same, Std.ReflOrd.compare_self] at smaller
      cases smaller
  · rcases back with larger | ⟨-, larger⟩
    · rw [same, Std.ReflOrd.compare_self] at larger
      cases larger
    · exact absurd (Std.OrientedCmp.gt_of_lt larger) (by rw [smaller]; decide)

theorem slotNames_nodup (store : Store N) : store.slotNames.Nodup := by
  apply store.slotNames_increasing.imp
  rintro left _ precedes rfl
  exact not_precedes_both precedes precedes

/-- Stores with slots in the same places list them in the same order. -/
theorem slotNames_eq_of_isSome {left right : Store N}
    (same : ∀ object name, (left.slot? object name).isSome =
      (right.slot? object name).isSome) :
    left.slotNames = right.slotNames := by
  have members : left.slotNames.Perm right.slotNames := by
    rw [List.perm_ext_iff_of_nodup left.slotNames_nodup right.slotNames_nodup]
    intro names
    rw [mem_slotNames_iff, mem_slotNames_iff, same]
  exact members.eq_of_pairwise
    (fun first second _ _ forth back => absurd back (not_precedes_both forth))
    left.slotNames_increasing right.slotNames_increasing

end Store

end DiagramEnergy
