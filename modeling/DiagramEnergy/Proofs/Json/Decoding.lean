import DiagramEnergy.Catalog.Json
import DiagramEnergy.Proofs.Json.Layouts
import DiagramEnergy.Proofs.Json.Values
import DiagramEnergy.Table.Lemmas

/-!
# Values that survive as JSON

A value survives if its JSON is legible and read as the value again.  Lists and
tables of such values survive, and a record survives field by field.
-/

namespace DiagramEnergy.Json

variable {α β γ : Type}

structure Survives (read? : Json → Option α) (write : α → Json) (value : α) :
    Prop where
  legible : Legible (write value)
  read : read? (write value) = some value

theorem Survives.read_render {read? : Json → Option α} {write : α → Json}
    {value : α} (survives : Survives read? write value) :
    (parse (write value).render).bind read? = some value := by
  rw [survives.legible.parse_render, Option.bind_some, survives.read]

/-! ## Single values -/

theorem survives_bool (truth : Bool) : Survives toBool? .bool truth :=
  ⟨.bool truth, rfl⟩

theorem survives_string (characters : String) :
    Survives toString? string characters :=
  ⟨.text (some characters), rfl⟩

theorem survives_natural {number : Nat} (fits : number < Nat.pow 2 64) :
    Survives toNat? (fun number => .number (.natural number)) number :=
  ⟨.number (JsonNumber.wellFormed_natural number), toNat?_natural fits⟩

theorem survives_integer (number : Int64) :
    Survives toInt64? (fun number => .number (.integer number.toInt)) number :=
  ⟨.number (JsonNumber.wellFormed_integer number.toInt), toInt64?_integer number⟩

/-- The digits that are written for a float stand for the float. -/
def ReadsBack (number : Float) : Prop :=
  (parse (float number).render).bind toFloat? = some number

instance (number : Float) : Decidable (ReadsBack number) :=
  inferInstanceAs (Decidable (_ = _))

theorem legible_float (number : Float) : Legible (float number) := by
  rw [float]
  split
  · exact .number (JsonNumber.wellFormed_ofLayout _
      (JsonNumber.wellFormed_layout _ _))
  · exact .null

theorem survives_float {number : Float} (readsBack : ReadsBack number) :
    Survives toFloat? float number := by
  have legible := legible_float number
  rw [ReadsBack, legible.parse_render] at readsBack
  exact ⟨legible, readsBack⟩

theorem exists_of_required? {read? : Json → Option α} {field : Option Json}
    {value : α} (read : required? read? field = some value) :
    ∃ content, read? content = some value := by
  cases field with
  | none => cases read
  | some content => exact ⟨content, read⟩

/-! ## Lists, tables and records -/

theorem mapM_map_eq_some (write : α → β) (read? : β → Option γ) (turn : α → γ)
    {items : List α} (each : ∀ item ∈ items, read? (write item) = some (turn item)) :
    (items.map write).mapM read? = some (items.map turn) := by
  induction items with
  | nil => rfl
  | cons item items induction =>
      rw [List.map_cons, List.mapM_cons, each item (by simp),
        induction fun other member => each other (by simp [member])]
      rfl

theorem exists_of_mem_mapM {read? : α → Option β} {items : List α}
    {results : List β} (read : items.mapM read? = some results) {result : β}
    (member : result ∈ results) : ∃ item ∈ items, read? item = some result := by
  induction items generalizing results with
  | nil =>
      cases read
      cases member
  | cons item items induction =>
      simp only [List.mapM_cons, Option.bind_eq_bind, Option.bind_eq_some_iff,
        Option.pure_def, Option.some.injEq] at read
      obtain ⟨first, firstRead, others, othersRead, rfl⟩ := read
      rcases List.mem_cons.1 member with rfl | member
      · exact ⟨item, by simp, firstRead⟩
      · obtain ⟨other, listed, otherRead⟩ := induction othersRead member
        exact ⟨other, by simp [listed], otherRead⟩

theorem survives_list {read? : Json → Option α} {write : α → Json}
    {items : List α} (each : ∀ item ∈ items, Survives read? write item) :
    Survives (toList? read?) (fun items => .array (items.map write)) items where
  legible := by
    refine .array fun element member => ?_
    obtain ⟨item, listed, rfl⟩ := List.mem_map.1 member
    exact (each item listed).legible
  read := by
    have read := mapM_map_eq_some write read? id
      fun item listed => (each item listed).read
    rwa [List.map_id] at read

theorem mem_toList? {read? : Json → Option α} {json : Json} {items : List α}
    (read : toList? read? json = some items) {item : α} (member : item ∈ items) :
    ∃ content, read? content = some item := by
  cases json with
  | array elements =>
      obtain ⟨content, -, contentRead⟩ := exists_of_mem_mapM read member
      exact ⟨content, contentRead⟩
  | _ => cases read

theorem legible_record {members : List (String × Json)}
    (each : ∀ member ∈ members, Legible member.2) : Legible (record members) := by
  refine .object fun member listed => ?_
  obtain ⟨entry, written, rfl⟩ := List.mem_map.1 listed
  exact each entry written

theorem legible_variant (name : String) {content : Json}
    (legible : Legible content) : Legible (record [(name, content)]) :=
  legible_record (List.forall_mem_singleton.2 legible)

theorem variant?_record (name : String) (content : Json) :
    (record [(name, content)]).variant? = some (name, some content) :=
  rfl

theorem survives_table {read? : Json → Option α} {write : α → Json}
    {table : Table String α}
    (each : ∀ entry ∈ table.entries, Survives read? write entry.2) :
    Survives (toTable? read?) (Table.toJson write) table where
  legible := by
    refine legible_record fun member listed => ?_
    obtain ⟨entry, written, rfl⟩ := List.mem_map.1 listed
    exact (each entry written).legible
  read := by
    have bindings := mapM_map_eq_some
      (fun entry : String × α => ((some entry.1 : JsonText), write entry.2))
      (fun member => do
        let key ← member.1
        let value ← read? member.2
        return (key, value))
      id fun entry member => by rw [(each entry member).read]; rfl
    rw [List.map_id] at bindings
    simp only [Table.toJson, record, List.map_map, toTable?]
    refine Option.bind_eq_some_iff.2 ⟨table.entries, bindings, ?_⟩
    rw [Table.ofList_entries]
    rfl

theorem mem_toTable? {read? : Json → Option α} {json : Json}
    {table : Table String α} (read : toTable? read? json = some table)
    {entry : String × α} (member : entry ∈ table.entries) :
    ∃ content, read? content = some entry.2 := by
  cases json with
  | object members =>
      obtain ⟨bindings, bound, same⟩ := Option.bind_eq_some_iff.1 read
      cases same
      have listed := Table.mem_of_get?_ofList (Table.get?_eq_some_iff.2 member)
      obtain ⟨⟨key, content⟩, -, made⟩ := exists_of_mem_mapM bound listed
      simp only [Option.bind_eq_bind, Option.bind_eq_some_iff, Option.pure_def,
        Option.some.injEq] at made
      obtain ⟨_, -, value, contentRead, made⟩ := made
      exact ⟨content, contentRead.trans (congrArg (some ∘ Prod.snd) made)⟩
  | _ => cases read

theorem filter_eq_singleton {members : List (String × Json)}
    (distinct : (members.map Prod.fst).Nodup) {member : String × Json}
    (listed : member ∈ members) :
    (members.filter fun other => other.1 == member.1) = [member] := by
  induction members with
  | nil => cases listed
  | cons other others induction =>
      rw [List.map_cons, List.nodup_cons] at distinct
      obtain ⟨absent, distinct⟩ := distinct
      rcases List.mem_cons.1 listed with rfl | listed
      · have none : (others.filter fun other => other.1 == member.1) = [] := by
          rw [List.filter_eq_nil_iff]
          intro other listed same
          rw [← beq_iff_eq.1 same] at absent
          exact absent (List.mem_map_of_mem listed)
        rw [List.filter_cons_of_pos (by simp), none]
      · have different : ¬(other.1 == member.1) = true := by
          intro same
          rw [beq_iff_eq.1 same] at absent
          exact absent (List.mem_map_of_mem listed)
        rw [List.filter_cons, if_neg different, induction distinct listed]

/-- The fields of a record are its members. -/
theorem fields?_record (members : List (String × Json))
    (distinct : (members.map Prod.fst).Nodup) :
    (record members).fields? (members.map Prod.fst) =
      some (members.map fun member => some member.2) := by
  have keys := mapM_map_eq_some
    (fun member : String × Json => ((some member.1 : JsonText), member.2))
    (fun member => member.1.map fun key => (key, member.2)) id
    fun member (_ : member ∈ members) => rfl
  rw [List.map_id] at keys
  refine Option.bind_eq_some_iff.2 ⟨members, keys, mapM_map_eq_some _ _ _ ?_⟩
  intro member listed
  rw [filter_eq_singleton distinct listed]

end DiagramEnergy.Json
