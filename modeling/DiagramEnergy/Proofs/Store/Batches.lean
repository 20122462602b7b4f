import DiagramEnergy.Proofs.Store.Insertion
import DiagramEnergy.Proofs.Store.Writing

/-!
# Insertion of a batch

A batch is inserted path by path, each one into the store that the paths before
it have left.  What a path needs for its insertion, a declared object, no
content of its own and a shape around it just if it is a property, is left as
it was by the insertion of any other path.  Therefore a batch can be judged by
the store before it: the order of its paths decides neither whether it is
accepted nor what comes out.

Main statement: `insertPaths_in_any_order`.
-/

namespace DiagramEnergy

variable {N : Type}

namespace Store

/-! ## Stores with the same names, kinds and contents -/

theorem isSome_object_of_objectNames {left right : Store N}
    (names : left.objectNames = right.objectNames) (object : String) :
    (left.objects.get? object).isSome = (right.objects.get? object).isSome := by
  rw [Bool.eq_iff_iff, ← Table.mem_keys_iff, ← Table.mem_keys_iff]
  change object ∈ left.objectNames ↔ object ∈ right.objectNames
  rw [names]

theorem slot?_eq_none_iff {store : Store N} {object name : String} :
    store.slot? object name = none ↔
      store.kind? object name = none ∧
        store.content? (.field object name) = none := by
  rw [kind?, content?_eq_slot?, Path.object, Path.fieldName]
  cases store.slot? object name with
  | none => simp
  | some slot => cases slot <;> simp [Slot.kind?, Slot.contentAt]

theorem slot?_eq_scalar_iff {store : Store N} {object name : String}
    {content : Content N} :
    store.slot? object name = some (.scalar content) ↔
      store.content? (.field object name) = some content := by
  rw [content?_eq_slot?, Path.object, Path.fieldName]
  cases store.slot? object name with
  | none => simp
  | some slot => cases slot <;> simp [Slot.contentAt]

theorem ext_kind? {left right : Store N}
    (names : left.objectNames = right.objectNames)
    (kinds : ∀ object name, left.kind? object name = right.kind? object name)
    (contents : ∀ path, left.content? path = right.content? path) :
    left = right := by
  apply ext_slot? (isSome_object_of_objectNames names)
  intro object name
  cases found : left.slot? object name with
  | none =>
      rw [slot?_eq_none_iff, kinds, contents] at found
      exact (slot?_eq_none_iff.2 found).symm
  | some slot =>
      cases slot with
      | scalar content =>
          rw [slot?_eq_scalar_iff, contents] at found
          exact (slot?_eq_scalar_iff.2 found).symm
      | shape kind properties =>
          have sameKind : right.kind? object name = some kind := by
            rw [← kinds, kind?_eq_some_iff]
            exact ⟨properties, found⟩
          obtain ⟨others, foundRight⟩ := kind?_eq_some_iff.1 sameKind
          have sameProperties : properties = others := by
            apply Table.ext_get?
            intro property
            rw [← content?_of_shape found, ← content?_of_shape foundRight,
              contents]
          rw [foundRight, sameProperties]

/-! ## One path -/

/-- Whether a path can be inserted: its object is declared, it has no content
yet, and it lies in a shape just if it is the path of a property. -/
structure Admits (store : Store N) (path : Path) : Prop where
  declared : store.hasObject path.object = true
  fresh : store.content? path = none
  inShape : (store.kind? path.object path.fieldName).isSome = !path.isField

theorem admits_field_iff {store : Store N} {object name : String} :
    store.Admits (.field object name) ↔
      store.hasObject object = true ∧ store.slot? object name = none := by
  rw [slot?_eq_none_iff]
  constructor
  · intro admits
    have noShape : (store.kind? object name).isSome = false := admits.inShape
    exact ⟨admits.declared, Option.isSome_eq_false_iff.1 noShape |>
      Option.isNone_iff_eq_none.1, admits.fresh⟩
  · intro unbound
    obtain ⟨declared, noShape, fresh⟩ := unbound
    refine ⟨declared, fresh, ?_⟩
    rw [Path.object, Path.fieldName, noShape]
    rfl

theorem admits_property_iff {store : Store N}
    {object name property : String} :
    store.Admits (.property object name property) ↔
      store.hasObject object = true ∧
        ∃ kind properties,
          store.slot? object name = some (.shape kind properties) ∧
            properties.get? property = none := by
  constructor
  · intro admits
    have inShape : (store.kind? object name).isSome = true := admits.inShape
    obtain ⟨kind, sameKind⟩ := Option.isSome_iff_exists.1 inShape
    obtain ⟨properties, found⟩ := kind?_eq_some_iff.1 sameKind
    refine ⟨admits.declared, kind, properties, found, ?_⟩
    rw [← content?_of_shape found]
    exact admits.fresh
  · intro unbound
    obtain ⟨declared, kind, properties, found, lacking⟩ := unbound
    refine ⟨declared, ?_, ?_⟩
    · rw [content?_of_shape found]
      exact lacking
    · have sameKind : store.kind? object name = some kind :=
        kind?_eq_some_iff.2 ⟨properties, found⟩
      rw [Path.object, Path.fieldName, sameKind]
      rfl

/-- What comes out when a store receives a batch: the contents of the batch at
its paths, and otherwise all that there was. -/
structure Receives (store : Store N) (batch : List (Path × Content N))
    (later : Store N) : Prop where
  objectNames : later.objectNames = store.objectNames
  kinds : ∀ object name, later.kind? object name = store.kind? object name
  listed : ∀ path content, (path, content) ∈ batch →
    later.content? path = some content
  others : ∀ path, path ∉ batch.map Prod.fst →
    later.content? path = store.content? path

theorem Receives.unique {store left right : Store N}
    {batch : List (Path × Content N)} (first : store.Receives batch left)
    (second : store.Receives batch right) : left = right := by
  apply ext_kind?
  · rw [first.objectNames, second.objectNames]
  · intro object name
    rw [first.kinds, second.kinds]
  · intro path
    by_cases isListed : path ∈ batch.map Prod.fst
    · obtain ⟨entry, member, rfl⟩ := List.mem_map.1 isListed
      rw [first.listed _ entry.2 member, second.listed _ entry.2 member]
    · rw [first.others path isListed, second.others path isListed]

theorem receives_bind {store : Store N} {object name : String}
    {fields : Table String (Slot N)} {slot : Slot N} {path : Path}
    {content : Content N}
    (declared : store.objects.get? object = some fields)
    (atPath : path.object = object ∧ path.fieldName = name)
    (sameKind : slot.kind? = (fields.get? name).bind Slot.kind?)
    (here : slot.contentAt path = some content)
    (others : ∀ other : Path, other.object = object ∧ other.fieldName = name →
      other ≠ path → slot.contentAt other = store.content? other) :
    store.Receives [(path, content)] (store.bind object name slot) := by
  have contents : ∀ other : Path, (store.bind object name slot).content? other =
      if other.object = object ∧ other.fieldName = name then
        slot.contentAt other
      else store.content? other := by
    intro other
    rw [content?_eq_slot?, slot?_bind declared]
    split
    · rfl
    · exact (content?_eq_slot? store other).symm
  constructor
  · exact objectNames_bind ..
  · exact kind?_bind declared sameKind
  · intro listed found member
    simp only [List.mem_singleton, Prod.mk.injEq] at member
    obtain ⟨rfl, rfl⟩ := member
    rw [contents, if_pos atPath]
    exact here
  · intro other notListed
    rw [contents]
    split
    · rename_i sameSlot
      exact others other sameSlot (by simpa using notListed)
    · rfl

/-- What an insertion that succeeds has found, and what it leaves. -/
theorem of_insertPath_ok {store later : Store N} {path : Path}
    {content : Content N}
    (inserted : insertPath path content store = .ok () later) :
    store.Admits path ∧ store.Receives [(path, content)] later := by
  cases path with
  | field object name =>
      obtain ⟨fields, declared, fresh, rfl⟩ := insertSlot_ok inserted
      have unbound : store.slot? object name = none := by
        rw [slot?, declared]
        exact fresh
      constructor
      · refine admits_field_iff.2 ⟨?_, unbound⟩
        rw [hasObject, Table.contains, declared]
        rfl
      · apply receives_bind declared ⟨rfl, rfl⟩
        · exact (congrArg (·.bind Slot.kind?) fresh).symm
        · rfl
        · intro other sameSlot different
          obtain ⟨rfl, rfl⟩ := sameSlot
          rw [content?_eq_slot?, unbound]
          cases other with
          | field => exact absurd rfl different
          | property => rfl
  | property object name property =>
      obtain ⟨fields, kind, properties, declared, bound, lacking, rfl⟩ :=
        insertPath_property_ok inserted
      have found : store.slot? object name = some (.shape kind properties) := by
        rw [slot?, declared]
        exact bound
      constructor
      · refine admits_property_iff.2 ⟨?_, kind, properties, found, lacking⟩
        rw [hasObject, Table.contains, declared]
        rfl
      · apply receives_bind declared ⟨rfl, rfl⟩
        · exact (congrArg (·.bind Slot.kind?) bound).symm
        · exact Table.get?_insert_self properties property content
        · intro other sameSlot different
          obtain ⟨rfl, rfl⟩ := sameSlot
          rw [content?_eq_slot?, found]
          cases other with
          | field => rfl
          | property object name otherProperty =>
              have otherName : otherProperty ≠ property := by
                intro same
                subst same
                exact different rfl
              exact (Table.get?_insert properties property otherProperty
                content).trans (if_neg otherName)

/-- A path that a store admits can be inserted. -/
theorem Admits.exists_insertPath {store : Store N} {path : Path}
    (admits : store.Admits path) (content : Content N) :
    ∃ later, insertPath path content store = .ok () later := by
  have declared := admits.declared
  rw [hasObject, Table.contains] at declared
  obtain ⟨fields, isObject⟩ := Option.isSome_iff_exists.1 declared
  cases path with
  | field object name =>
      obtain ⟨-, unbound⟩ := admits_field_iff.1 admits
      rw [Path.object] at isObject
      rw [slot?, isObject, Option.bind_some] at unbound
      refine ⟨store.bind object name (.scalar content), ?_⟩
      simp only [insertPath, insertSlot, Insertion.look_apply, fieldsOf,
        isObject, unbound]
      rfl
  | property object name property =>
      obtain ⟨-, kind, properties, found, lacking⟩ :=
        admits_property_iff.1 admits
      rw [Path.object] at isObject
      rw [slot?, isObject, Option.bind_some] at found
      refine ⟨store.bind object name
        (.shape kind (properties.insert property content)), ?_⟩
      simp only [insertPath, Insertion.look_apply, fieldsOf, isObject, found,
        lacking]
      rfl

/-! ## One path after the other -/

section Step

variable {store staged : Store N} {path : Path} {content : Content N}

/-- Inserting one path changes what is admitted for this path only. -/
theorem Receives.admits_iff (first : store.Receives [(path, content)] staged)
    (other : Path) :
    staged.Admits other ↔ other ≠ path ∧ store.Admits other := by
  have declared : staged.hasObject other.object =
      store.hasObject other.object :=
    isSome_object_of_objectNames first.objectNames other.object
  have kinds := first.kinds other.object other.fieldName
  have contents : other ≠ path →
      staged.content? other = store.content? other := by
    intro different
    exact first.others other (by simpa using different)
  constructor
  · intro admits
    have different : other ≠ path := by
      intro same
      have present := first.listed path content (by simp)
      rw [← same, admits.fresh] at present
      cases present
    refine ⟨different, ?_, ?_, ?_⟩
    · rw [← declared]
      exact admits.declared
    · rw [← contents different]
      exact admits.fresh
    · rw [← kinds]
      exact admits.inShape
  · intro before
    obtain ⟨different, admits⟩ := before
    constructor
    · rw [declared]
      exact admits.declared
    · rw [contents different]
      exact admits.fresh
    · rw [kinds]
      exact admits.inShape

/-- What is received after a first path that is not repeated. -/
theorem Receives.cons {later : Store N} {batch : List (Path × Content N)}
    (first : store.Receives [(path, content)] staged)
    (once : path ∉ batch.map Prod.fst)
    (rest : staged.Receives batch later) :
    store.Receives ((path, content) :: batch) later := by
  constructor
  · rw [rest.objectNames, first.objectNames]
  · intro object name
    rw [rest.kinds, first.kinds]
  · intro listed found member
    rcases List.mem_cons.1 member with same | member
    · cases same
      rw [rest.others path once]
      exact first.listed path content (by simp)
    · exact rest.listed listed found member
  · intro other notListed
    rw [List.map_cons, List.mem_cons, not_or] at notListed
    rw [rest.others other notListed.2]
    exact first.others other (by simpa using notListed.1)

end Step

/-- What a run of insertions has found in the store that it began with, and
what it leaves. -/
theorem of_insertEach_ok (batch : List (Path × Content N))
    {store later : Store N}
    (inserted : insertEach batch store = .ok () later) :
    (batch.map Prod.fst).Nodup ∧
      (∀ path ∈ batch.map Prod.fst, store.Admits path) ∧
      store.Receives batch later := by
  induction batch generalizing store with
  | nil =>
      cases inserted
      exact ⟨.nil, fun _ member => (by cases member), rfl, fun _ _ => rfl,
        fun _ _ member => (by cases member), fun _ _ => rfl⟩
  | cons entry batch induction =>
      obtain ⟨path, content⟩ := entry
      obtain ⟨staged, insertedFirst, insertedRest⟩ :=
        insertEach_cons_eq_ok_iff.1 inserted
      obtain ⟨admits, first⟩ := of_insertPath_ok insertedFirst
      obtain ⟨distinct, admitted, rest⟩ := induction insertedRest
      have once : path ∉ batch.map Prod.fst := by
        intro member
        have again := admitted path member
        exact ((first.admits_iff path).1 again).1 rfl
      refine ⟨List.nodup_cons.2 ⟨once, distinct⟩, ?_, first.cons once rest⟩
      rw [List.map_cons, List.forall_mem_cons]
      refine ⟨admits, ?_⟩
      intro other member
      exact ((first.admits_iff other).1 (admitted other member)).2

/-- Distinct paths that a store admits can be inserted one after the other. -/
theorem exists_insertEach (batch : List (Path × Content N))
    {store : Store N} (distinct : (batch.map Prod.fst).Nodup)
    (admitted : ∀ path ∈ batch.map Prod.fst, store.Admits path) :
    ∃ later, insertEach batch store = .ok () later := by
  induction batch generalizing store with
  | nil => exact ⟨store, rfl⟩
  | cons entry batch induction =>
      obtain ⟨path, content⟩ := entry
      obtain ⟨once, restDistinct⟩ := List.nodup_cons.1 distinct
      obtain ⟨admits, restAdmitted⟩ := List.forall_mem_cons.1 admitted
      obtain ⟨staged, insertedFirst⟩ := admits.exists_insertPath content
      have first := (of_insertPath_ok insertedFirst).2
      have stillAdmitted : ∀ other ∈ batch.map Prod.fst,
          staged.Admits other := by
        intro other member
        apply (first.admits_iff other).2
        constructor
        · intro same
          subst same
          exact once member
        · exact restAdmitted other member
      obtain ⟨later, insertedRest⟩ := induction restDistinct stillAdmitted
      refine ⟨later, ?_⟩
      exact insertEach_cons_eq_ok_iff.2 ⟨staged, insertedFirst, insertedRest⟩

/-! ## Whole batches -/

/-- Whether a batch can be inserted, judged by the store before it. -/
structure Admissible (store : Store N) (paths : List Path)
    (contents : List (Content N)) : Prop where
  arity : paths.length = contents.length
  distinct : paths.Nodup
  declared : ∀ path ∈ paths, store.hasObject path.object = true
  fields : ∀ object name, .field object name ∈ paths →
    store.slot? object name = none
  properties : ∀ object name property, .property object name property ∈ paths →
    ∃ kind properties,
      store.slot? object name = some (.shape kind properties) ∧
        properties.get? property = none

theorem admissible_iff {store : Store N} {paths : List Path}
    {contents : List (Content N)} :
    store.Admissible paths contents ↔
      paths.length = contents.length ∧ paths.Nodup ∧
        ∀ path ∈ paths, store.Admits path := by
  constructor
  · intro admissible
    refine ⟨admissible.arity, admissible.distinct, ?_⟩
    intro path member
    have declared := admissible.declared path member
    cases path with
    | field object name =>
        exact admits_field_iff.2
          ⟨declared, admissible.fields object name member⟩
    | property object name property =>
        exact admits_property_iff.2
          ⟨declared, admissible.properties object name property member⟩
  · intro conditions
    obtain ⟨arity, distinct, admitted⟩ := conditions
    constructor
    · exact arity
    · exact distinct
    · intro path member
      exact (admitted path member).declared
    · intro object name member
      exact (admits_field_iff.1 (admitted _ member)).2
    · intro object name property member
      exact (admits_property_iff.1 (admitted _ member)).2

theorem exists_insertPaths_iff {store : Store N} {paths : List Path}
    {contents : List (Content N)} :
    (∃ later, insertPaths paths contents store = .ok () later) ↔
      store.Admissible paths contents := by
  simp only [admissible_iff, insertPaths_eq_ok_iff_insertEach]
  constructor
  · intro accepted
    obtain ⟨later, arity, inserted⟩ := accepted
    obtain ⟨distinct, admitted, -⟩ := of_insertEach_ok _ inserted
    rw [List.map_fst_zip (Nat.le_of_eq arity)] at distinct admitted
    exact ⟨arity, distinct, admitted⟩
  · intro conditions
    obtain ⟨arity, distinct, admitted⟩ := conditions
    rw [← List.map_fst_zip (Nat.le_of_eq arity)] at distinct admitted
    obtain ⟨later, inserted⟩ := exists_insertEach _ distinct admitted
    exact ⟨later, arity, inserted⟩

theorem receives_insertPaths {store later : Store N} {paths : List Path}
    {contents : List (Content N)}
    (inserted : insertPaths paths contents store = .ok () later) :
    store.Receives (paths.zip contents) later :=
  (of_insertEach_ok _ (insertPaths_eq_ok_iff_insertEach.1 inserted).2).2.2

/-- What is said of a batch and its result, without regard to its order. -/
theorem insertPaths_eq_ok_iff {store later : Store N} {paths : List Path}
    {contents : List (Content N)} :
    insertPaths paths contents store = .ok () later ↔
      store.Admissible paths contents ∧
        store.Receives (paths.zip contents) later := by
  constructor
  · intro inserted
    exact ⟨exists_insertPaths_iff.1 ⟨later, inserted⟩,
      receives_insertPaths inserted⟩
  · intro received
    obtain ⟨admissible, receives⟩ := received
    obtain ⟨other, inserted⟩ := exists_insertPaths_iff.2 admissible
    rw [inserted, (receives_insertPaths inserted).unique receives]

/-! ## Any order -/

theorem Receives.of_perm {store later : Store N}
    {batch reordered : List (Path × Content N)}
    (permutation : batch.Perm reordered)
    (receives : store.Receives batch later) :
    store.Receives reordered later := by
  constructor
  · exact receives.objectNames
  · exact receives.kinds
  · intro path content member
    exact receives.listed path content (permutation.mem_iff.2 member)
  · intro path notListed
    apply receives.others path
    intro member
    exact notListed ((permutation.map Prod.fst).mem_iff.1 member)

theorem Admissible.of_perm {store : Store N} {paths reordered : List Path}
    {contents moved : List (Content N)}
    (sameLength : reordered.length = moved.length)
    (permutation : (paths.zip contents).Perm (reordered.zip moved))
    (admissible : store.Admissible paths contents) :
    store.Admissible reordered moved := by
  obtain ⟨arity, distinct, admitted⟩ := admissible_iff.1 admissible
  have pathsPermutation : paths.Perm reordered := by
    have firsts := permutation.map Prod.fst
    rw [List.map_fst_zip (Nat.le_of_eq arity),
      List.map_fst_zip (Nat.le_of_eq sameLength)] at firsts
    exact firsts
  apply admissible_iff.2
  refine ⟨sameLength, pathsPermutation.nodup_iff.1 distinct, ?_⟩
  intro path member
  exact admitted path (pathsPermutation.mem_iff.2 member)

theorem insertPaths_of_perm {store later : Store N}
    {paths reordered : List Path} {contents moved : List (Content N)}
    (sameLength : reordered.length = moved.length)
    (permutation : (paths.zip contents).Perm (reordered.zip moved))
    (inserted : insertPaths paths contents store = .ok () later) :
    insertPaths reordered moved store = .ok () later := by
  obtain ⟨admissible, receives⟩ := insertPaths_eq_ok_iff.1 inserted
  exact insertPaths_eq_ok_iff.2
    ⟨admissible.of_perm sameLength permutation, receives.of_perm permutation⟩

/-- A batch is inserted exactly if it is admissible in the store before it.
The store then has its contents at its paths and is otherwise the same, which
leaves one store only; a batch that is refused leaves the store as it was.  The
same pairs in another order give the same store, or are refused as well. -/
theorem insertPaths_in_any_order (store : Store N) (paths : List Path)
    (contents : List (Content N)) :
    ((∃ later, insertPaths paths contents store = .ok () later) ↔
        store.Admissible paths contents) ∧
      (∀ later, insertPaths paths contents store = .ok () later →
        store.Receives (paths.zip contents) later ∧
          ∀ other, store.Receives (paths.zip contents) other →
            other = later) ∧
      (∀ error later, insertPaths paths contents store = .error error later →
        later = store) ∧
      ∀ reordered moved, paths.length = contents.length →
        reordered.length = moved.length →
        (paths.zip contents).Perm (reordered.zip moved) →
          (∀ later, insertPaths paths contents store = .ok () later →
            insertPaths reordered moved store = .ok () later) ∧
          ∀ error later,
            insertPaths paths contents store = .error error later →
            ∃ other, insertPaths reordered moved store = .error other store := by
  refine ⟨exists_insertPaths_iff, ?_, ?_, ?_⟩
  · intro later inserted
    have receives := receives_insertPaths inserted
    refine ⟨receives, ?_⟩
    intro other received
    exact received.unique receives
  · exact isAtomic_insertPaths paths contents store
  · intro reordered moved arity sameLength permutation
    constructor
    · intro later inserted
      exact insertPaths_of_perm sameLength permutation inserted
    · intro error later refused
      cases outcome : insertPaths reordered moved store with
      | error other left =>
          rw [isAtomic_insertPaths reordered moved store other left outcome]
          exact ⟨other, rfl⟩
      | ok result left =>
          have back := insertPaths_of_perm arity permutation.symm outcome
          rw [refused] at back
          cases back

/-- A mark without properties. -/
def markStore : Store Float :=
  (Store.empty.declare "A").bind "A" "mark" (.shape "Mark" .empty)

/-- A field and a property of the mark are inserted alike in both orders; a
field cannot take a property in the same batch, in neither order, and is not
left behind without it. -/
theorem insertPaths_in_any_order_mark :
    let place : Path := .field "A" "place"
    let width : Path := .property "A" "mark" "w"
    let height : Path := .property "A" "place" "h"
    let free : Content Float := .symbolic .vary
    let here : Content Float := .symbolic (.reference place)
    (∃ later, insertPaths [place, width] [free, here] markStore =
        .ok () later ∧
      insertPaths [width, place] [here, free] markStore = .ok () later ∧
      later.content? width = some here) ∧
    ∃ error other,
      insertPaths [place, height] [free, here] markStore =
        .error error markStore ∧
      insertPaths [height, place] [here, free] markStore =
        .error other markStore := by
  intro place width height free here
  constructor
  · obtain ⟨accepted, received, -, reordered⟩ := insertPaths_in_any_order
      markStore [place, width] [free, here]
    have admissible : markStore.Admissible [place, width] [free, here] := by
      have placeFits : markStore.Admits (.field "A" "place") :=
        ⟨rfl, rfl, rfl⟩
      have widthFits : markStore.Admits (.property "A" "mark" "w") :=
        ⟨rfl, rfl, rfl⟩
      apply admissible_iff.2
      refine ⟨rfl, by decide, ?_⟩
      rw [List.forall_mem_cons, List.forall_mem_singleton]
      exact ⟨placeFits, widthFits⟩
    obtain ⟨later, inserted⟩ := accepted.2 admissible
    refine ⟨later, inserted, ?_, ?_⟩
    · exact (reordered [width, place] [here, free] rfl rfl (.swap ..)).1
        later inserted
    · exact (received later inserted).1.listed width here (by simp)
  · have unfit : ¬ markStore.Admits (.property "A" "place" "h") := by
      intro admits
      cases admits.inShape
    obtain ⟨accepted, -, unchanged, reordered⟩ := insertPaths_in_any_order
      markStore [place, height] [free, here]
    cases outcome : insertPaths [place, height] [free, here] markStore with
    | ok result later =>
        have admissible := accepted.1 ⟨later, outcome⟩
        exact absurd ((admissible_iff.1 admissible).2.2 height (by simp)) unfit
    | error error later =>
        obtain ⟨other, refusedToo⟩ := (reordered [height, place] [here, free]
          rfl rfl (.swap ..)).2 error later outcome
        rw [unchanged error later outcome]
        exact ⟨error, other, rfl, refusedToo⟩

end Store

end DiagramEnergy
