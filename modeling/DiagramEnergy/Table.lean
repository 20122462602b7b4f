/-!
# Ordered tables

A table binds finitely many keys, each one once, and lists its entries in
increasing key order.  The order is part of the type, so two tables with the
same bindings are equal, whatever history built them.
-/

namespace DiagramEnergy

open Std (TransOrd TransCmp OrientedCmp)

structure Table (κ : Type) [Ord κ] (α : Type) where
  entries : List (κ × α)
  increasing : entries.Pairwise fun earlier later =>
    compare earlier.1 later.1 = .lt

namespace Table

variable {κ : Type} [Ord κ] {α β : Type}

instance [DecidableEq κ] [DecidableEq α] : DecidableEq (Table κ α) :=
  fun left right =>
    if same : left.entries = right.entries then
      isTrue (by cases left; cases right; simp_all)
    else isFalse fun equality => same (congrArg entries equality)

theorem ext_entries {left right : Table κ α}
    (same : left.entries = right.entries) : left = right := by
  cases left; cases right; simp_all

def empty : Table κ α := ⟨[], .nil⟩

instance : EmptyCollection (Table κ α) := ⟨empty⟩

instance : Inhabited (Table κ α) := ⟨empty⟩

def keys (table : Table κ α) : List κ := table.entries.map Prod.fst

def size (table : Table κ α) : Nat := table.entries.length

def isEmpty (table : Table κ α) : Bool := table.entries.isEmpty

/-- The value that a list of entries binds to a key. -/
def find (key : κ) : List (κ × α) → Option α
  | [] => none
  | (other, value) :: rest =>
    if compare key other = .eq then some value else find key rest

def get? (table : Table κ α) (key : κ) : Option α := find key table.entries

def contains (table : Table κ α) (key : κ) : Bool := (table.get? key).isSome

/-- Places an entry in a sorted list, in place of one with the same key. -/
def place (key : κ) (value : α) : List (κ × α) → List (κ × α)
  | [] => [(key, value)]
  | (other, old) :: rest =>
    match compare key other with
    | .lt => (key, value) :: (other, old) :: rest
    | .eq => (key, value) :: rest
    | .gt => (other, old) :: place key value rest

theorem mem_place {key : κ} {value : α} {entry : κ × α} {entries : List (κ × α)}
    (member : entry ∈ place key value entries) :
    entry = (key, value) ∨ entry ∈ entries := by
  induction entries with
  | nil => simpa [place] using member
  | cons head rest induction =>
    obtain ⟨other, old⟩ := head
    simp only [place] at member
    split at member
    · simpa using member
    · simp only [List.mem_cons] at member ⊢
      rcases member with rfl | member
      · exact .inl rfl
      · exact .inr (.inr member)
    · simp only [List.mem_cons] at member ⊢
      rcases member with rfl | member
      · exact .inr (.inl rfl)
      · rcases induction member with equality | member
        · exact .inl equality
        · exact .inr (.inr member)

/-- Applies `change` to the value bound to `key`, if there is one. -/
def modify (table : Table κ α) (key : κ) (change : α → α) : Table κ α where
  entries := table.entries.map fun entry =>
    (entry.1, if compare key entry.1 = .eq then change entry.2 else entry.2)
  increasing := by
    rw [List.pairwise_map]
    exact table.increasing

/-- Changes every value and no key. -/
def map (change : α → β) (table : Table κ α) : Table κ β where
  entries := table.entries.map fun entry => (entry.1, change entry.2)
  increasing := by
    rw [List.pairwise_map]
    exact table.increasing

variable [TransOrd κ]

theorem place_increasing {key : κ} {value : α} {entries : List (κ × α)}
    (increasing : entries.Pairwise fun earlier later =>
      compare earlier.1 later.1 = .lt) :
    (place key value entries).Pairwise fun earlier later =>
      compare earlier.1 later.1 = .lt := by
  induction entries with
  | nil => simp [place]
  | cons head rest induction =>
    obtain ⟨other, old⟩ := head
    obtain ⟨below, restIncreasing⟩ := List.pairwise_cons.1 increasing
    simp only [place]
    split
    case h_1 smaller =>
      refine List.pairwise_cons.2 ⟨?_, increasing⟩
      intro entry member
      rcases List.mem_cons.1 member with rfl | member
      · exact smaller
      · exact TransCmp.lt_trans smaller (below entry member)
    case h_2 equal =>
      refine List.pairwise_cons.2 ⟨?_, restIncreasing⟩
      intro entry member
      exact TransCmp.lt_of_eq_of_lt equal (below entry member)
    case h_3 greater =>
      refine List.pairwise_cons.2 ⟨?_, induction restIncreasing⟩
      intro entry member
      rcases mem_place member with rfl | member
      · exact OrientedCmp.gt_iff_lt.1 greater
      · exact below entry member

/-- Binds `key` to `value`, whatever it was bound to before. -/
def insert (table : Table κ α) (key : κ) (value : α) : Table κ α where
  entries := place key value table.entries
  increasing := place_increasing table.increasing

/-- The table of a list of bindings, of which the last one for a key counts. -/
def ofList (bindings : List (κ × α)) : Table κ α :=
  bindings.foldl (fun table binding => table.insert binding.1 binding.2) empty

end Table

end DiagramEnergy
