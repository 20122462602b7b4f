import Mathlib
import DiagramEnergy.Proofs.Evaluation.Loop
import DiagramEnergy.Proofs.Store.Filling

/-!
# Chains of references

A path may refer to another one, that one to a third, and so on, through fields
and properties alike.  Each step costs two units of the budget, one for the path
and one for the reference.  Main statement: a chain of references to a value
resolves just if the budget outlasts it, and then its slots and no others take
the value over; in all other cases, and for references that never come to an
end, the limit error is all that happens.
-/

namespace DiagramEnergy

variable {σ N : Type}

namespace Store

/-- No override hides the slot at a path, and it holds a bare reference. -/
def RefersTo (store : Store N) (overrides : Overrides N)
    (path next : Path) : Prop :=
  overrides.get? path = none ∧
    store.content? path = some (.symbolic (.reference next))

theorem RefersTo.demand {store : Store N} {overrides : Overrides N}
    {path next : Path} (refers : store.RefersTo overrides path next) :
    store.demand overrides path = .ok (.evaluate (.reference next)) :=
  demand_evaluate_iff.2 refers

/-- A store after the first paths of a walk have taken a value over. -/
structure FilledAlong (start : Store N) (walk : Nat → Path) (hops : Nat)
    (value : Value N) (later : Store N) : Prop where
  outline : later.outline = start.outline
  taken : ∀ hop < hops,
    later.content? (walk hop) = some (.concrete value)
  others : ∀ path, (∀ hop < hops, walk hop ≠ path) →
    later.content? path = start.content? path

namespace FilledAlong

variable {start later : Store N} {walk : Nat → Path} {hops : Nat}
  {value : Value N}

theorem zero (store : Store N) (walk : Nat → Path) (value : Value N) :
    FilledAlong store walk 0 value store :=
  ⟨rfl, fun _ before => absurd before (Nat.not_lt_zero _), fun _ _ => rfl⟩

/-- The first path of a walk takes the value over after all the others. -/
theorem cacheValue {expr : Expr}
    (filled : FilledAlong start (fun hop => walk (hop + 1)) hops value later)
    (symbolic : start.content? (walk 0) = some (.symbolic expr)) :
    FilledAlong start walk (hops + 1) value
      (later.cacheValue (walk 0) value) := by
  -- If the walk comes back to its first path, that path is filled already.
  have first : (later.cacheValue (walk 0) value).content? (walk 0) =
      some (.concrete value) := by
    rw [content?_cacheValue, if_pos rfl]
    by_cases returns : ∃ hop < hops, walk (hop + 1) = walk 0
    · obtain ⟨hop, before, same⟩ := returns
      have held := filled.taken hop before
      rw [same] at held
      rw [held]
      rfl
    · have unchanged := filled.others (walk 0) fun hop before same =>
        returns ⟨hop, before, same⟩
      rw [unchanged, symbolic]
      rfl
  refine ⟨by rw [outline_cacheValue, filled.outline], ?_, ?_⟩
  · intro hop before
    by_cases same : walk hop = walk 0
    · rw [same]
      exact first
    · obtain _ | hop := hop
      · exact absurd rfl same
      · rw [content?_cacheValue, if_neg same]
        exact filled.taken hop (by omega)
  · intro path elsewhere
    have different : path ≠ walk 0 := (elsewhere 0 (by omega)).symm
    rw [content?_cacheValue, if_neg different]
    exact filled.others path fun hop before => elsewhere (hop + 1) (by omega)

end FilledAlong

end Store

/-- What the limit error names when a budget runs out on a walk: the path that is
due, or else the reference to the next one. -/
def Path.whereSpent (walk : Nat → Path) (budget : Nat) : String :=
  if budget % 2 = 0 then (walk (budget / 2)).text
  else (Expr.reference (walk (budget / 2 + 1))).describe

theorem Path.whereSpent_succ (walk : Nat → Path) (budget : Nat) :
    whereSpent walk (budget + 2) =
      whereSpent (fun hop => walk (hop + 1)) budget := by
  simp [whereSpent]

namespace Evaluator

variable [Scalar N] {evaluator : Evaluator σ N} {overrides : Overrides N}
  {walk : Nat → Path} {hops budget : Nat} {memory : Memory σ N}
  {value : Value N}

/-- A reference is followed with two units of the budget. -/
theorem run_descendPath_of_refersTo {path next : Path}
    (refers : memory.store.RefersTo overrides path next) (budget : Nat) :
    (evaluator.descendPath overrides true (budget + 2) path).run memory =
      (do
        let result ← evaluator.descendPath overrides true budget next
        Descent.accept true path result).run memory := by
  rw [run_descendPath, refers.demand]
  rfl

variable (evaluator memory) in
theorem run_descendPath_of_resolves
    (refers : ∀ hop < hops,
      memory.store.RefersTo overrides (walk hop) (walk (hop + 1)))
    (ends : memory.store.demand overrides (walk hops) = .ok (.ready value))
    (enough : 2 * hops < budget) :
    ∃ later, (evaluator.descendPath overrides true budget (walk 0)).run
        memory = (.ok (.plain value), ⟨later, memory.world⟩) ∧
      memory.store.FilledAlong walk hops value later := by
  induction hops generalizing walk budget with
  | zero =>
      obtain ⟨rest, rfl⟩ := Nat.exists_eq_add_of_le' enough
      refine ⟨memory.store, ?_, .zero _ _ _⟩
      rw [run_descendPath, ends]
      rfl
  | succ hops induction =>
      obtain ⟨rest, rfl⟩ :=
        Nat.exists_eq_add_of_le' (show 2 ≤ budget by omega)
      obtain ⟨between, ran, filled⟩ :=
        @induction (fun hop => walk (hop + 1)) rest
          (fun hop before => refers (hop + 1) (by omega)) ends (by omega)
      have first := refers 0 (by omega)
      refine ⟨between.cacheValue (walk 0) value, ?_, filled.cacheValue first.2⟩
      rw [run_descendPath_of_refersTo first, Descent.run_bind, ran]
      rfl

/-- As long as each path that the budget reaches refers to another one, the
budget runs out and nothing is changed. -/
theorem run_descendPath_of_refers
    (refers : ∀ hop, 2 * hop < budget →
      memory.store.RefersTo overrides (walk hop) (walk (hop + 1))) :
    (evaluator.descendPath overrides true budget (walk 0)).run memory =
      (.error (evaluator.exceeded (Path.whereSpent walk budget)), memory) := by
  induction budget using Nat.strongRecOn generalizing walk with
  | ind budget induction =>
      match budget with
      | 0 => rfl
      | 1 =>
          rw [run_descendPath, (refers 0 (by omega)).demand]
          rfl
      | rest + 2 =>
          have later := @induction rest (by omega)
            (fun hop => walk (hop + 1))
            fun hop before => refers (hop + 1) (by omega)
          rw [run_descendPath_of_refersTo (refers 0 (by omega)),
            Descent.run_bind, later, Path.whereSpent_succ]

variable (evaluator overrides) in
/-- A chain of references to a value resolves just if it fits into the budget,
and then its slots take the value over.  Otherwise, and if the references never
end, evaluation ends at the limit and leaves everything as it was. -/
theorem references_resolve_within_budget (walk : Nat → Path) (depth : Nat)
    (pass : Pass σ N) :
    let ended :=
      Evaluation.forget (evaluator.evalPathAt overrides depth (walk 0) pass)
    let stopped : Except Error (Evaluated N) × Memory σ N :=
      (.error (.recursionLimit evaluator.limit
        (Path.whereSpent walk (evaluator.limit - depth))), pass.memory)
    (∀ hops value,
      (∀ hop < hops,
        pass.store.RefersTo overrides (walk hop) (walk (hop + 1))) →
      pass.store.demand overrides (walk hops) = .ok (.ready value) →
      (ended.1 = .ok (.plain value) ↔ depth + 2 * hops < evaluator.limit) ∧
      (depth + 2 * hops < evaluator.limit →
        pass.store.FilledAlong walk hops value ended.2.store) ∧
      (evaluator.limit ≤ depth + 2 * hops → ended = stopped)) ∧
    ((∀ hop, pass.store.RefersTo overrides (walk hop) (walk (hop + 1))) →
      ended = stopped) := by
  intro ended stopped
  have same : ended = (evaluator.descendPath overrides true
      (evaluator.limit - depth) (walk 0)).run pass.memory :=
    forget_evalPathAt depth (walk 0) pass
  constructor
  · intro hops value refers ends
    have within : depth + 2 * hops < evaluator.limit →
        ended.1 = .ok (.plain value) ∧
        pass.store.FilledAlong walk hops value ended.2.store := by
      intro enough
      have fits : 2 * hops < evaluator.limit - depth := by omega
      obtain ⟨later, ran, filled⟩ :=
        run_descendPath_of_resolves evaluator pass.memory refers ends fits
      rw [same, ran]
      exact ⟨rfl, filled⟩
    have beyond : evaluator.limit ≤ depth + 2 * hops → ended = stopped := by
      intro spent
      rw [same]
      exact run_descendPath_of_refers fun hop before =>
        refers hop (by omega)
    refine ⟨⟨?_, fun enough => (within enough).1⟩,
      fun enough => (within enough).2, beyond⟩
    intro succeeded
    rcases Nat.lt_or_ge (depth + 2 * hops) evaluator.limit with enough | spent
    · exact enough
    · rw [beyond spent] at succeeded
      cases succeeded
  · intro refers
    rw [same]
    exact run_descendPath_of_refers fun hop _ => refers hop

/-- A chain of two references fits into five units but not into four. -/
theorem references_resolve_linked :
    let pass : Pass Unit Float :=
      ⟨.linked (.scalar (.concrete (.int 7))), (), []⟩
    let ended (limit : Nat) := Evaluation.forget
      ((mk .empty limit).evalPathAt .empty 0 (.field "A" "start") pass)
    (ended 5).1 = .ok (.plain (.int 7)) ∧
      ended 4 = (.error (.recursionLimit 4 "A.target"), pass.memory) := by
  intro pass ended
  let walk : Nat → Path
    | 0 => .field "A" "start"
    | 1 => .property "A" "box" "link"
    | _ => .field "A" "target"
  have refers : ∀ hop < 2,
      pass.store.RefersTo .empty (walk hop) (walk (hop + 1)) := by
    intro hop before
    match hop with
    | 0 => exact ⟨rfl, by cbv⟩
    | 1 => exact ⟨rfl, by cbv⟩
  have ends : pass.store.demand .empty (walk 2) = .ok (.ready (.int 7)) := by
    cbv
  constructor
  · have resolves := references_resolve_within_budget (mk .empty 5) .empty walk
      0 pass
    exact (resolves.1 2 (.int 7) refers ends).1.2 (by decide)
  · have stops := references_resolve_within_budget (mk .empty 4) .empty walk
      0 pass
    exact (stops.1 2 (.int 7) refers ends).2.2 (by decide)

end Evaluator

end DiagramEnergy
