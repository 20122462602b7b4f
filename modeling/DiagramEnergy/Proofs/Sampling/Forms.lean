import DiagramEnergy.Proofs.Sampling.Order

/-!
# Samples do not depend on contents

Two stores have the same form if they have the same objects, fields, kinds and
properties and are marked as free in the same places; the values and the
expressions that they hold elsewhere may differ.  Sampling looks at the form of
a store only: from the same generator, stores of the same form are sampled at
the same paths, with the same values, and leave the same generator behind.

Main statement: `sample_ignores_contents`.
-/

namespace DiagramEnergy

variable {N : Type}

/-- Whether a path has content in a slot depends on the outline of the slot. -/
theorem Slot.isSome_contentAt_of_outline {left right : Slot N}
    (outlines : left.outline = right.outline) (path : Path) :
    (left.contentAt path).isSome = (right.contentAt path).isSome := by
  cases left with
  | scalar content =>
      cases right with
      | scalar other => cases path <;> rfl
      | shape kind properties => cases outlines
  | shape kind properties =>
      cases right with
      | scalar content => cases outlines
      | shape otherKind others =>
          simp only [outline, Option.some.injEq, Prod.mk.injEq] at outlines
          cases path with
          | field object name => rfl
          | property object name property =>
              rw [Bool.eq_iff_iff, contentAt, contentAt,
                ← Table.mem_keys_iff, ← Table.mem_keys_iff, outlines.2]

namespace Store

/-- The same objects, fields, kinds and properties, and the same free slots. -/
structure SameForm (left right : Store N) : Prop where
  outline : left.outline = right.outline
  marks : ∀ path, left.content? path = some (.symbolic .vary) ↔
    right.content? path = some (.symbolic .vary)

namespace SameForm

variable {left right : Store N} (form : left.SameForm right)
include form

theorem kind? (object name : String) :
    left.kind? object name = right.kind? object name := by
  have outlines := slot?_outline form.outline object name
  rw [Store.kind?, Store.kind?]
  cases found : left.slot? object name with
  | none =>
      cases foundRight : right.slot? object name with
      | none => rfl
      | some other => simp [found, foundRight] at outlines
  | some slot =>
      cases foundRight : right.slot? object name with
      | none => simp [found, foundRight] at outlines
      | some other =>
          rw [found, foundRight, Option.map_some, Option.map_some,
            Option.some.injEq] at outlines
          have kinds (slot : Slot N) :
              slot.kind? = slot.outline.map Prod.fst := by
            cases slot <;> rfl
          rw [Option.bind_some, Option.bind_some, kinds, kinds, outlines]

theorem isSome_content? (path : Path) :
    (left.content? path).isSome = (right.content? path).isSome := by
  have outlines := slot?_outline form.outline path.object path.fieldName
  rw [content?_eq_slot?, content?_eq_slot?]
  cases found : left.slot? path.object path.fieldName with
  | none =>
      cases foundRight : right.slot? path.object path.fieldName with
      | none => rfl
      | some other => simp [found, foundRight] at outlines
  | some slot =>
      cases foundRight : right.slot? path.object path.fieldName with
      | none => simp [found, foundRight] at outlines
      | some other =>
          rw [found, foundRight, Option.map_some, Option.map_some,
            Option.some.injEq] at outlines
          exact Slot.isSome_contentAt_of_outline outlines path

theorem isVary_content? (path : Path) :
    (left.content? path).map Content.isVary =
      (right.content? path).map Content.isVary := by
  have present := form.isSome_content? path
  have marks := form.marks path
  cases found : left.content? path with
  | none =>
      cases foundRight : right.content? path with
      | none => rfl
      | some other => simp [found, foundRight] at present
  | some content =>
      cases foundRight : right.content? path with
      | none => simp [found, foundRight] at present
      | some other =>
          rw [found, foundRight, Option.some.injEq, Option.some.injEq,
            ← Content.isVary_iff, ← Content.isVary_iff,
            ← Bool.eq_iff_iff] at marks
          rw [Option.map_some, Option.map_some, marks]

end SameForm

/-- Remembering a value of a slot that is not free keeps the form. -/
theorem sameForm_cacheValue {store : Store N} {path : Path}
    (held : store.content? path ≠ some (.symbolic .vary)) (value : Value N) :
    store.SameForm (store.cacheValue path value) := by
  constructor
  · exact (outline_cacheValue store path value).symm
  · intro other
    rw [content?_cacheValue]
    by_cases same : other = path
    · rw [if_pos same, same]
      constructor
      · intro marked
        exact absurd marked held
      · intro marked
        obtain ⟨content, -, filled⟩ := Option.map_eq_some_iff.1 marked
        cases content <;> cases filled
    · rw [if_neg same]

end Store

namespace Sampling

variable {left right : Store Float} (form : left.SameForm right)
  (catalog : Catalog)
include form

theorem freeFields_of_sameForm :
    freeFields left catalog = freeFields right catalog := by
  apply Path.eq_of_increasing id
  · exact freeFields_increasing left catalog
  · exact freeFields_increasing right catalog
  · intro path
    rw [mem_freeFields_iff, mem_freeFields_iff, form.marks]

theorem targets_of_sameForm : targets left catalog = targets right catalog := by
  apply targets_congr form.kind?
  intro object name property
  exact form.isVary_content? _

end Sampling

namespace Problem

/-- Stores of the same form are sampled alike: the same paths change, each of
them to the same content, and the same generator is left.  The free fields come
first and take one share each, in the order of the store; the properties that
want a sample then follow in order. -/
theorem sample_ignores_contents {left right : Store Float}
    (form : left.SameForm right) (catalog : Catalog) (config : Config)
    (generator : Generator) :
    let first := (sample left catalog config
      (left.varyingPaths catalog)).run generator
    let second := (sample right catalog config
      (right.varyingPaths catalog)).run generator
    (∀ path, first.1.store.content? path ≠ left.content? path ↔
      second.1.store.content? path ≠ right.content? path) ∧
    (∀ path, first.1.store.content? path ≠ left.content? path →
      second.1.store.content? path = first.1.store.content? path) ∧
    second.2 = first.2 ∧
    DrawsInOrder left catalog config.canvas generator first := by
  intro first second
  have drawnFirst : DrawsInOrder left catalog config.canvas generator first :=
    drawsInOrder_sample left catalog config generator
  have drawnSecond : DrawsInOrder right catalog config.canvas generator
      second :=
    drawsInOrder_sample right catalog config generator
  have sameFields := Sampling.freeFields_of_sameForm form catalog
  have sameTargets := Sampling.targets_of_sameForm form catalog
  refine ⟨?_, ?_, ?_, drawnFirst⟩
  · intro path
    rw [drawnFirst.changed_iff, drawnSecond.changed_iff, sameFields,
      sameTargets]
  · intro path changed
    cases (drawnFirst.changed_iff path).1 changed with
    | inl isField =>
        obtain ⟨index, there⟩ := List.getElem?_of_mem isField
        rw [drawnFirst.fields index path there]
        rw [sameFields] at there
        exact drawnSecond.fields index path there
    | inr isTarget =>
        obtain ⟨target, member, rfl⟩ := List.mem_map.1 isTarget
        obtain ⟨index, there⟩ := List.getElem?_of_mem member
        rw [drawnFirst.properties index target.1 target.2 there, sameTargets,
          sameFields]
        rw [sameTargets] at there
        exact drawnSecond.properties index target.1 target.2 there
  · rw [drawnFirst.generator, drawnSecond.generator, sameTargets, sameFields]

/-- The dot after its position has been evaluated. -/
def evaluatedDotStore : Store Float :=
  dotStore.cacheValue (.property "A" "dot" "x") (.float 3)

def sampleDot (store : Store Float) : Sampled × Generator :=
  (sample store dotCatalog {} (store.varyingPaths dotCatalog)).run ⟨16⟩

/-- The dot is sampled alike before and after the evaluation. -/
theorem sample_ignores_contents_dot :
    evaluatedDotStore.content? (.property "A" "dot" "x") ≠
      dotStore.content? (.property "A" "dot" "x") ∧
    (sampleDot dotStore).1.store.content? (.field "A" "free") ≠
      dotStore.content? (.field "A" "free") ∧
    (sampleDot evaluatedDotStore).1.store.content? (.field "A" "free") =
      (sampleDot dotStore).1.store.content? (.field "A" "free") ∧
    (sampleDot evaluatedDotStore).2 = (sampleDot dotStore).2 := by
  have held : dotStore.content? (.property "A" "dot" "x") =
      some (.symbolic (.reference (.field "A" "free"))) := by
    rfl
  have filled : evaluatedDotStore.content? (.property "A" "dot" "x") =
      some (.concrete (.float 3)) := by
    rw [evaluatedDotStore, Store.content?_cacheValue, if_pos rfl, held]
    rfl
  have form : dotStore.SameForm evaluatedDotStore := by
    apply Store.sameForm_cacheValue
    rw [held]
    intro marked
    cases marked
  obtain ⟨-, alike, sameGenerator, drawn⟩ :=
    sample_ignores_contents form dotCatalog {} ⟨16⟩
  have isFree : .field "A" "free" ∈ Sampling.freeFields dotStore dotCatalog :=
    Sampling.mem_freeFields_iff.2 ⟨rfl, rfl⟩
  have changed := (drawn.changed_iff _).2 (.inl isFree)
  have moved : evaluatedDotStore.content? (.property "A" "dot" "x") ≠
      dotStore.content? (.property "A" "dot" "x") := by
    rw [filled, held]
    intro same
    cases same
  unfold sampleDot
  exact ⟨moved, changed, alike _ changed, sameGenerator⟩

end Problem

end DiagramEnergy
