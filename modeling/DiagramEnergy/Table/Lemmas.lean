import DiagramEnergy.Table

/-!
# What each table operation does to its bindings

Every operation is described by the bindings it leaves, read with `get?`.
Main statement: a table is determined by what it binds (`ext_get?`).
-/

namespace DiagramEnergy.Table

open Std (TransOrd LawfulEqOrd TransCmp OrientedCmp)

variable {κ : Type} [Ord κ] {α β : Type}

@[simp] theorem get?_empty (key : κ) : (empty : Table κ α).get? key = none := rfl

@[simp] theorem keys_map (change : α → β) (table : Table κ α) :
    (table.map change).keys = table.keys := by
  simp [map, keys]

@[simp] theorem keys_modify (table : Table κ α) (key : κ) (change : α → α) :
    (table.modify key change).keys = table.keys := by
  simp [modify, keys]

theorem find_map (change : α → β) (key : κ) (entries : List (κ × α)) :
    find key (entries.map fun entry => (entry.1, change entry.2)) =
      (find key entries).map change := by
  induction entries with
  | nil => rfl
  | cons head rest induction =>
    simp only [List.map_cons, find]
    split <;> simp [induction]

@[simp] theorem get?_map (change : α → β) (table : Table κ α) (key : κ) :
    (table.map change).get? key = (table.get? key).map change :=
  find_map change key table.entries

theorem map_map {γ : Type} (first : α → β) (second : β → γ)
    (table : Table κ α) :
    (table.map first).map second = table.map fun value => second (first value) := by
  simp [map]

theorem map_self (table : Table κ α) : table.map (fun value => value) = table := by
  simp [map]

theorem find_eq_none_of_below {key : κ} {entries : List (κ × α)}
    (below : ∀ entry ∈ entries, compare key entry.1 = .lt) :
    find key entries = none := by
  induction entries with
  | nil => rfl
  | cons head rest induction =>
    have smaller := below head (by simp)
    simp only [find, smaller, reduceCtorEq, if_false]
    exact induction fun entry member => below entry (by simp [member])

variable [LawfulEqOrd κ]

theorem find_place [DecidableEq κ] (key other : κ) (value : α) (entries : List (κ × α)) :
    find other (place key value entries) =
      if other = key then some value else find other entries := by
  induction entries with
  | nil => simp [place, find]
  | cons head rest induction =>
    obtain ⟨first, old⟩ := head
    simp only [place]
    split
    case h_1 => simp [find]
    case h_2 equal =>
      have equality : key = first := Std.LawfulEqOrd.compare_eq_iff_eq.1 equal
      subst equality
      simp only [find, Std.LawfulEqOrd.compare_eq_iff_eq]
      split <;> rfl
    case h_3 greater =>
      have different : first ≠ key := by
        intro equality
        simp [equality, Std.ReflOrd.compare_self] at greater
      simp only [find, Std.LawfulEqOrd.compare_eq_iff_eq, induction]
      by_cases equality : other = first
      · simp [equality, different]
      · simp [equality]

theorem find_modify [DecidableEq κ] (key other : κ) (change : α → α) (entries : List (κ × α)) :
    find other (entries.map fun entry =>
        (entry.1, if compare key entry.1 = .eq then change entry.2 else entry.2)) =
      if other = key then (find other entries).map change else find other entries := by
  induction entries with
  | nil => simp [find]
  | cons head rest induction =>
    obtain ⟨first, old⟩ := head
    simp only [List.map_cons, find, Std.LawfulEqOrd.compare_eq_iff_eq] at induction ⊢
    by_cases equality : other = first
    · subst equality
      by_cases same : key = other
      · simp [same]
      · simp [same, Ne.symm same]
    · simp [equality, induction]

theorem get?_modify [DecidableEq κ] (table : Table κ α) (key other : κ) (change : α → α) :
    (table.modify key change).get? other =
      if other = key then (table.get? other).map change else table.get? other :=
  find_modify key other change table.entries

theorem find_eq_some_iff {key : κ} {value : α} {entries : List (κ × α)}
    (increasing : entries.Pairwise fun earlier later =>
      compare earlier.1 later.1 = .lt) :
    find key entries = some value ↔ (key, value) ∈ entries := by
  induction entries with
  | nil => simp [find]
  | cons head rest induction =>
    obtain ⟨first, old⟩ := head
    obtain ⟨below, restIncreasing⟩ := List.pairwise_cons.1 increasing
    simp only [find, Std.LawfulEqOrd.compare_eq_iff_eq, List.mem_cons, Prod.mk.injEq]
    by_cases equality : key = first
    · subst equality
      have absent : (key, value) ∉ rest := by
        intro member
        have smaller := below _ member
        simp [Std.ReflOrd.compare_self] at smaller
      simp [absent, eq_comm]
    · simp [equality, induction restIncreasing]

theorem get?_eq_some_iff {table : Table κ α} {key : κ} {value : α} :
    table.get? key = some value ↔ (key, value) ∈ table.entries :=
  find_eq_some_iff table.increasing

theorem mem_keys_iff {table : Table κ α} {key : κ} :
    key ∈ table.keys ↔ (table.get? key).isSome := by
  simp only [keys, List.mem_map, Prod.exists, exists_and_right, exists_eq_right,
    Option.isSome_iff_exists, get?_eq_some_iff]

theorem keys_nodup (table : Table κ α) : table.keys.Nodup := by
  simp only [keys, List.Nodup, List.pairwise_map]
  refine table.increasing.imp ?_
  intro earlier later smaller equality
  simp [equality, Std.ReflOrd.compare_self] at smaller

variable [TransOrd κ]

theorem get?_insert [DecidableEq κ] (table : Table κ α) (key other : κ) (value : α) :
    (table.insert key value).get? other =
      if other = key then some value else table.get? other :=
  find_place key other value table.entries

@[simp] theorem get?_insert_self [DecidableEq κ] (table : Table κ α) (key : κ) (value : α) :
    (table.insert key value).get? key = some value := by
  simp [get?_insert]

theorem entries_eq_of_find {left right : List (κ × α)}
    (leftIncreasing : left.Pairwise fun earlier later =>
      compare earlier.1 later.1 = .lt)
    (rightIncreasing : right.Pairwise fun earlier later =>
      compare earlier.1 later.1 = .lt)
    (same : ∀ key, find key left = find key right) : left = right := by
  induction left generalizing right with
  | nil =>
    cases right with
    | nil => rfl
    | cons head rest =>
      have found := same head.1
      simp [find, Std.ReflOrd.compare_self] at found
  | cons leftHead leftRest induction =>
    cases right with
    | nil =>
      have found := same leftHead.1
      simp [find, Std.ReflOrd.compare_self] at found
    | cons rightHead rightRest =>
      obtain ⟨leftBelow, leftRestIncreasing⟩ := List.pairwise_cons.1 leftIncreasing
      obtain ⟨rightBelow, rightRestIncreasing⟩ := List.pairwise_cons.1 rightIncreasing
      have leftMember : (leftHead.1, leftHead.2) ∈ rightHead :: rightRest := by
        rw [← find_eq_some_iff rightIncreasing, ← same leftHead.1]
        simp [find, Std.ReflOrd.compare_self]
      have rightMember : (rightHead.1, rightHead.2) ∈ leftHead :: leftRest := by
        rw [← find_eq_some_iff leftIncreasing, same rightHead.1]
        simp [find, Std.ReflOrd.compare_self]
      have heads : leftHead = rightHead := by
        rcases List.mem_cons.1 leftMember with equality | leftMember
        · exact equality
        · rcases List.mem_cons.1 rightMember with equality | rightMember
          · exact equality.symm
          · have downward := rightBelow _ leftMember
            have upward := leftBelow _ rightMember
            simp only at downward upward
            rw [OrientedCmp.gt_of_lt upward] at downward
            cases downward
      subst heads
      congr 1
      refine induction leftRestIncreasing rightRestIncreasing ?_
      intro key
      by_cases equality : key = leftHead.1
      · subst equality
        rw [find_eq_none_of_below leftBelow, find_eq_none_of_below rightBelow]
      · have found := same key
        simpa [find, equality] using found

/-- A table is determined by what it binds. -/
theorem ext_get? {left right : Table κ α}
    (same : ∀ key, left.get? key = right.get? key) : left = right :=
  ext_entries (entries_eq_of_find left.increasing right.increasing same)

/-! ## Tables of lists -/

theorem map_insert [DecidableEq κ] (change : α → β) (table : Table κ α) (key : κ)
    (value : α) :
    (table.insert key value).map change = (table.map change).insert key (change value) := by
  apply ext_get?
  intro other
  simp only [get?_map, get?_insert]
  split <;> rfl

theorem map_ofList [DecidableEq κ] (change : α → β) (bindings : List (κ × α)) :
    (ofList bindings).map change =
      ofList (bindings.map fun binding => (binding.1, change binding.2)) := by
  have each : ∀ table : Table κ α,
      (bindings.foldl (fun table binding => table.insert binding.1 binding.2) table).map
        change = (bindings.map fun binding => (binding.1, change binding.2)).foldl
          (fun table binding => table.insert binding.1 binding.2) (table.map change) := by
    induction bindings with
    | nil => exact fun _ => rfl
    | cons binding bindings induction =>
      intro table
      rw [List.foldl_cons, induction, map_insert]
      rfl
  exact each empty

theorem get?_foldl_insert [DecidableEq κ] {key : κ} (bindings : List (κ × α))
    (table : Table κ α) :
    (∃ value, (key, value) ∈ bindings ∧
      (bindings.foldl (fun table binding => table.insert binding.1 binding.2)
        table).get? key = some value) ∨
    (key ∉ bindings.map Prod.fst ∧
      (bindings.foldl (fun table binding => table.insert binding.1 binding.2)
        table).get? key = table.get? key) := by
  induction bindings generalizing table with
  | nil => exact .inr ⟨by simp, rfl⟩
  | cons binding bindings induction =>
    obtain ⟨other, value⟩ := binding
    rcases induction (table.insert other value) with
      ⟨found, member, bound⟩ | ⟨absent, bound⟩
    · exact .inl ⟨found, by simp [member], bound⟩
    · rw [get?_insert] at bound
      by_cases same : key = other
      · rw [if_pos same] at bound
        exact .inl ⟨value, by simp [same], bound⟩
      · rw [if_neg same] at bound
        refine .inr ⟨?_, bound⟩
        simp only [List.map_cons, List.mem_cons, not_or]
        exact ⟨same, absent⟩

/-- A table of a list binds a key to a value that the list has for it. -/
theorem mem_of_get?_ofList [DecidableEq κ] {bindings : List (κ × α)} {key : κ}
    {value : α} (bound : (ofList bindings).get? key = some value) :
    (key, value) ∈ bindings := by
  rcases get?_foldl_insert bindings (empty : Table κ α) with
    ⟨found, member, same⟩ | ⟨_, same⟩
  · have equality : some found = some value := same.symm.trans bound
    cases equality
    exact member
  · have equality : (none : Option α) = some value := same.symm.trans bound
    cases equality

omit [Ord κ] [LawfulEqOrd κ] [TransOrd κ] in
theorem eq_of_nodup_keys {bindings : List (κ × α)} {key : κ}
    {left right : α} (distinct : (bindings.map Prod.fst).Nodup)
    (leftMember : (key, left) ∈ bindings)
    (rightMember : (key, right) ∈ bindings) : left = right := by
  induction bindings with
  | nil => cases leftMember
  | cons binding bindings induction =>
    rw [List.map_cons, List.nodup_cons] at distinct
    obtain ⟨absent, restDistinct⟩ := distinct
    rcases List.mem_cons.1 leftMember with leftHead | leftRest
    · rcases List.mem_cons.1 rightMember with rightHead | rightRest
      · exact congrArg Prod.snd (leftHead.trans rightHead.symm)
      · rw [← leftHead] at absent
        exact absurd (List.mem_map_of_mem (f := Prod.fst) rightRest) absent
    · rcases List.mem_cons.1 rightMember with rightHead | rightRest
      · rw [← rightHead] at absent
        exact absurd (List.mem_map_of_mem (f := Prod.fst) leftRest) absent
      · exact induction restDistinct leftRest rightRest

theorem get?_ofList_of_mem [DecidableEq κ] {bindings : List (κ × α)} {key : κ}
    {value : α} (distinct : (bindings.map Prod.fst).Nodup)
    (member : (key, value) ∈ bindings) :
    (ofList bindings).get? key = some value := by
  rcases get?_foldl_insert bindings (empty : Table κ α) with
    ⟨found, foundMember, bound⟩ | ⟨absent, _⟩
  · have same : found = value := eq_of_nodup_keys distinct foundMember member
    rw [← same]
    exact bound
  · exact absurd (List.mem_map_of_mem (f := Prod.fst) member) absent

/-- A table is the table of its own entries. -/
theorem ofList_entries [DecidableEq κ] (table : Table κ α) :
    ofList table.entries = table := by
  apply ext_get?
  intro key
  cases bound : table.get? key with
  | some value =>
    exact get?_ofList_of_mem table.keys_nodup (get?_eq_some_iff.1 bound)
  | none =>
    cases found : (ofList table.entries).get? key with
    | none => rfl
    | some value =>
      rw [get?_eq_some_iff.2 (mem_of_get?_ofList found)] at bound
      cases bound

theorem isSome_get?_ofList [DecidableEq κ] {bindings : List (κ × α)} {key : κ}
    (member : key ∈ bindings.map Prod.fst) :
    ∃ value, (ofList bindings).get? key = some value := by
  rcases get?_foldl_insert bindings (empty : Table κ α) with
    ⟨found, _, bound⟩ | ⟨absent, _⟩
  · exact ⟨found, bound⟩
  · exact absurd member absent

theorem get?_ofList_eq_none [DecidableEq κ] {bindings : List (κ × α)} {key : κ}
    (absent : key ∉ bindings.map Prod.fst) :
    (ofList bindings).get? key = none := by
  cases found : (ofList bindings).get? key with
  | none => rfl
  | some value =>
      exact absurd (List.mem_map_of_mem (mem_of_get?_ofList found)) absent

/-- Bindings of distinct keys all count. -/
theorem size_ofList [DecidableEq κ] {bindings : List (κ × α)}
    (distinct : (bindings.map Prod.fst).Nodup) :
    (ofList bindings).size = bindings.length := by
  have members : (ofList bindings).keys.Perm (bindings.map Prod.fst) := by
    rw [List.perm_ext_iff_of_nodup (keys_nodup _) distinct]
    intro key
    rw [mem_keys_iff]
    constructor
    · intro bound
      obtain ⟨value, found⟩ := Option.isSome_iff_exists.1 bound
      exact List.mem_map_of_mem (mem_of_get?_ofList found)
    · intro member
      obtain ⟨value, found⟩ := isSome_get?_ofList member
      rw [found]
      rfl
  simpa [size, keys] using members.length_eq

end DiagramEnergy.Table
