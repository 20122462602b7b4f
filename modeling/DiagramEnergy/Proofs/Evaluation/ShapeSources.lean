import DiagramEnergy.Proofs.Evaluation.References
import DiagramEnergy.Proofs.Evaluation.Trail

/-!
# Where shapes come from

A shape is assembled at a field, or a computation returns it for the expression
of a slot, and references hand it on.  Whether a slot may yield it is checked
only when the chain of references is closed.  Main statement: what a property
yields is never a shape; and where a field yields one, all slots on the way are
fields, which neither the closing of the chain nor anything before it has
changed.
-/

namespace DiagramEnergy

variable {σ N : Type}

namespace Store

/-- The slots that refer on from a path, in order, and the path behind the last
of them, which does not. -/
inductive Leads (store : Store N) (overrides : Overrides N) :
    Path → List Path → Path → Prop where
  | stop {path : Path} :
      (∀ next, ¬ store.RefersTo overrides path next) →
      Leads store overrides path [] path
  | hop {path next last : Path} {hops : List Path} :
      store.RefersTo overrides path next →
      Leads store overrides next hops last →
      Leads store overrides path (path :: hops) last

variable {store : Store N} {overrides : Overrides N} {path : Path}

theorem not_refersTo_of_demand {wanted : Demand N}
    (asked : store.demand overrides path = .ok wanted)
    (ends : ∀ next, wanted ≠ .evaluate (.reference next)) (next : Path) :
    ¬ store.RefersTo overrides path next := by
  intro refers
  rw [refers.demand] at asked
  cases asked
  exact ends next rfl

end Store

/-! ## Closing a chain with a shape -/

namespace Evaluation

variable {pass final : Pass σ N} {shape : Shape N} {path : Path}

/-- A shape is handed to fields only, and it is not kept. -/
theorem of_close_shaped (ran : close (.shaped shape) path pass = .ok () final) :
    path.isField = true ∧
      final = { pass with trail := .closed path false :: pass.trail } := by
  cases isField : path.isField with
  | false =>
      simp only [close, isField] at ran
      cases ran
  | true =>
      simp only [close, isField] at ran
      cases ran
      exact ⟨rfl, rfl⟩

theorem of_forM_close_shaped {chain : List Path}
    (ran : chain.forM (close (.shaped shape)) pass = .ok () final) :
    (∀ slot ∈ chain, slot.isField = true) ∧ final.store = pass.store ∧
      final.trail =
        (chain.map (Mark.closed · false)).reverse ++ pass.trail := by
  induction chain generalizing pass with
  | nil =>
      cases ran
      exact ⟨by simp, rfl, rfl⟩
  | cons slot chain induction =>
      obtain ⟨_, between, closed, rest⟩ := of_bind_ok ran
      obtain ⟨isField, rfl⟩ := of_close_shaped closed
      obtain ⟨fields, store, trail⟩ := induction rest
      exact ⟨List.forall_mem_cons.2 ⟨isField, fields⟩, store, by simp [trail]⟩

end Evaluation

namespace Evaluator

variable [Scalar N] {evaluator : Evaluator σ N} {overrides : Overrides N}
  {budget : Nat} {path last : Path} {chain settled hops : List Path}
  {pass middle final : Pass σ N} {result : Evaluated N} {shape : Shape N}

/-! ## The chain that a loop collects -/

/-- How a loop comes by its result at the last path, and whether it collects
that path too, which it does to close it when its expression is evaluated. -/
inductive Ends (store : Store N) (overrides : Overrides N) (last : Path) :
    Evaluated N → List Path → Prop where
  | ready {value : Value N} :
      store.demand overrides last = .ok (.ready value) →
      Ends store overrides last (.plain value) []
  | evaluated {expr : Expr} {result : Evaluated N} :
      store.demand overrides last = .ok (.evaluate expr) →
      Ends store overrides last result [last]
  | assembled {kind : String} {names : List String} {shape : Shape N} :
      store.demand overrides last = .ok (.assemble kind names) →
      Ends store overrides last (.shaped shape) []

/-- A loop that succeeds has collected the slots that refer on, up to the path
that its result comes from. -/
theorem of_follow_ok
    (ran : evaluator.follow overrides budget path chain pass =
      .ok (result, settled) middle) :
    ∃ hops last own, pass.store.Leads overrides path hops last ∧
      Ends pass.store overrides last result own ∧
      settled = own ++ hops.reverse ++ chain := by
  induction budget using Nat.strongRecOn generalizing path chain pass with
  | ind budget induction =>
      cases budget with
      | zero => cases ran
      | succ budget =>
          simp only [follow] at ran
          obtain ⟨_, _, got, ran⟩ := of_bind_ok ran
          cases got
          obtain ⟨resolved, _, found, ran⟩ := of_bind_ok ran
          obtain ⟨resolves, rfl⟩ := Evaluation.ofExcept_eq_ok_iff.1 found
          have asked : pass.store.demand overrides path =
              .ok (Demand.ofResolved resolved) := by
            rw [Store.demand, resolves]
            rfl
          generalize Demand.ofResolved resolved = wanted at ran asked
          have stays (ends : ∀ next, wanted ≠ .evaluate (.reference next)) :
              pass.store.Leads overrides path [] path :=
            .stop (Store.not_refersTo_of_demand asked ends)
          split at ran
          case h_1 value =>
            cases ran
            refine ⟨_, _, _, stays ?_, .ready asked, rfl⟩
            intro next same
            cases same
          case h_2 next =>
            cases budget with
            | zero => cases ran
            | succ budget =>
                obtain ⟨_, _, marked, ran⟩ := of_bind_ok ran
                cases marked
                obtain ⟨hops, last, own, leads, ends, same⟩ :=
                  induction budget (by omega) ran
                have refers := Store.demand_evaluate_iff.1 asked
                refine ⟨path :: hops, last, own, .hop refers leads, ends, ?_⟩
                simpa using same
          case h_3 expr noReference =>
            obtain ⟨_, _, marked, ran⟩ := of_bind_ok ran
            cases marked
            obtain ⟨found, _, evaluated, ran⟩ := of_bind_ok ran
            cases ran
            refine ⟨_, _, _, stays ?_, .evaluated asked, rfl⟩
            rintro next ⟨⟩
            exact noReference next rfl
          case h_4 kind names =>
            obtain ⟨values, _, visited, ran⟩ := of_bind_ok ran
            cases ran
            refine ⟨_, _, _, stays ?_, .assembled asked, rfl⟩
            intro next same
            cases same

/-! ## Slots that yield shapes -/

/-- A slot whose expression yields a shape holds what it held before. -/
theorem content?_of_complete_shaped {expr : Expr}
    (asked : pass.store.demand overrides path = .ok (.evaluate expr))
    (ran : evaluator.complete overrides budget path expr pass =
      .ok (.shaped shape) final) :
    final.store.content? path = pass.store.content? path := by
  obtain ⟨middle, evaluated, closing⟩ := of_complete_ok ran
  obtain ⟨-, rfl⟩ := Evaluation.of_close_shaped closing
  obtain ⟨inner, -, chronicle, absent, -⟩ := logs_own_expr
    ((evaluator.logged overrides budget).1 expr)
    (pass.store.closed_all overrides) trivial asked evaluated
  exact chronicle.content?_of_not_opened absent

theorem content?_of_visit_shaped_at_end
    (ends : ∀ next, ¬ pass.store.RefersTo overrides path next)
    (ran : evaluator.visit overrides (budget + 1) path pass =
      .ok (.shaped shape) final) :
    final.store.content? path = pass.store.content? path := by
  obtain ⟨wanted, asked, attended⟩ := of_visit_ok ran
  cases wanted with
  | ready value => cases attended
  | evaluate expr => exact content?_of_complete_shaped asked attended
  | assemble kind names =>
      -- A field that holds a shape has no content, and evaluation adds none.
      obtain ⟨_, -, chronicle, -⟩ := (evaluator.logged overrides (budget + 1)).2
        path _ trivial pass final _ (pass.store.closed_all overrides) ran
      obtain ⟨-, isField, properties, found, -⟩ :=
        Store.demand_assemble_iff.1 asked
      have empty : pass.store.content? path = none := by
        rw [Store.content?_eq_slot?, found]
        cases path with
        | field object name => rfl
        | property object name property => cases isField
      rw [empty]
      exact Store.Filled.content?_none chronicle.grown empty

/-- All slots that a shape passes through hold what they held before. -/
theorem content?_of_visit_shaped
    (leads : pass.store.Leads overrides path hops last)
    (ran : evaluator.visit overrides budget path pass =
      .ok (.shaped shape) final) :
    ∀ slot ∈ last :: hops,
      final.store.content? slot = pass.store.content? slot := by
  generalize atStart : pass.store = start at leads
  induction leads generalizing budget pass final with
  | @stop path ends =>
      subst atStart
      cases budget with
      | zero => cases ran
      | succ budget =>
          rw [List.forall_mem_singleton]
          exact content?_of_visit_shaped_at_end ends ran
  | @hop path next last hops refers leads induction =>
      subst atStart
      cases budget with
      | zero => cases ran
      | succ budget =>
          obtain ⟨wanted, asked, attended⟩ := of_visit_ok ran
          rw [refers.demand] at asked
          cases asked
          have own := content?_of_complete_shaped refers.demand attended
          obtain ⟨middle, evaluated, closing⟩ := of_complete_ok attended
          obtain ⟨-, rfl⟩ := Evaluation.of_close_shaped closing
          cases budget with
          | zero => cases evaluated
          | succ budget =>
              rw [evalExpr_reference] at evaluated
              have behind := induction evaluated rfl
              intro slot member
              rcases List.mem_cons.1 member with rfl | member
              · exact behind slot List.mem_cons_self
              · rcases List.mem_cons.1 member with rfl | member
                · exact own
                · exact behind slot (List.mem_cons_of_mem _ member)

/-! ## Fields and properties -/

/-- A shape comes through a chain of fields alone, and all that is left to do
when it has been found is to mark them as closed. -/
theorem of_evalPathAt_shaped {depth : Nat}
    (ran : evaluator.evalPathAt overrides depth path pass =
      .ok (.shaped shape) final) :
    ∃ hops last own middle, pass.store.Leads overrides path hops last ∧
      Ends pass.store overrides last (.shaped shape) own ∧
      (∀ slot ∈ last :: hops, slot.isField = true ∧
        final.store.content? slot = pass.store.content? slot) ∧
      evaluator.follow overrides (evaluator.limit - depth) path [] pass =
        .ok (.shaped shape, own ++ hops.reverse) middle ∧
      final.store = middle.store ∧
      final.trail = ((own ++ hops.reverse).map (Mark.closed · false)).reverse ++
        middle.trail := by
  obtain ⟨⟨result, chain⟩, middle, followed, settled⟩ := of_bind_ok ran
  obtain ⟨_, between, closed, returned⟩ := of_bind_ok settled
  cases returned
  obtain ⟨fields, store, trail⟩ := Evaluation.of_forM_close_shaped closed
  obtain ⟨hops, last, own, leads, ends, same⟩ := of_follow_ok followed
  rw [List.append_nil] at same
  subst same
  have lastField : last.isField = true := by
    cases ends with
    | evaluated asked => exact fields last (by simp)
    | assembled asked => exact (Store.demand_assemble_iff.1 asked).2.1
  have contents := content?_of_visit_shaped leads ran
  refine ⟨hops, last, own, middle, leads, ends, ?_, followed, store, trail⟩
  intro slot member
  refine ⟨?_, contents slot member⟩
  rcases List.mem_cons.1 member with rfl | member
  · exact lastField
  · exact fields slot (by simp [member])

/-- A property never yields a shape, so it makes no difference to the assembly
of shapes what would be done with one.  If a field yields a shape, references
lead from it to a field that holds the shape or whose expression yields it; all
slots on the way are fields and hold what they held before, and the closing of
their chain changes nothing in the store. -/
theorem shapes_come_through_fields (evaluator : Evaluator σ N)
    (overrides : Overrides N) (depth : Nat) (object name : String)
    (pass : Pass σ N) :
    (∀ property shape final,
      evaluator.evalPathAt overrides depth (.property object name property)
        pass ≠ .ok (.shaped shape) final) ∧
    (∀ property (other : Shape N → Evaluation σ N (Value N)),
      let path := Path.property object name property
      (do
        let result ← evaluator.evalPathAt overrides depth path
        .ofExcept (result.toValue path.text)) pass =
      (do
        match ← evaluator.evalPathAt overrides depth path with
        | .plain value => return value
        | .shaped shape => other shape) pass) ∧
    ∀ shape final,
      evaluator.evalPathAt overrides depth (.field object name) pass =
        .ok (.shaped shape) final →
      ∃ hops last own middle,
        pass.store.Leads overrides (.field object name) hops last ∧
        Ends pass.store overrides last (.shaped shape) own ∧
        (∀ slot ∈ last :: hops, slot.isField = true ∧
          final.store.content? slot = pass.store.content? slot) ∧
        evaluator.follow overrides (evaluator.limit - depth)
            (.field object name) [] pass =
          .ok (.shaped shape, own ++ hops.reverse) middle ∧
        final.store = middle.store ∧
        final.trail =
          ((own ++ hops.reverse).map (Mark.closed · false)).reverse ++
            middle.trail := by
  have never : ∀ property shape final,
      evaluator.evalPathAt overrides depth (.property object name property)
        pass ≠ .ok (.shaped shape) final := by
    intro property shape final ran
    obtain ⟨hops, last, _, _, leads, -, fields, -⟩ := of_evalPathAt_shaped ran
    cases leads with
    | stop => cases (fields _ List.mem_cons_self).1
    | hop => cases (fields (.property object name property) (by simp)).1
  refine ⟨never, ?_, fun shape final ran => of_evalPathAt_shaped ran⟩
  intro property other path
  simp only [Bind.bind, EStateM.bind]
  cases ran : evaluator.evalPathAt overrides depth path pass with
  | error error final => rfl
  | ok result final =>
      cases result with
      | plain value => rfl
      | shaped shape => exact absurd ran (never property shape final)

/-! ## A shape that is computed -/

/-- An evaluator with one computation, which returns a shape. -/
def stamping : Evaluator Unit Float :=
  ⟨Table.empty.insert "stamp"
    (.ofFunction fun _ => .ok (.shaped ⟨"Stamp", .empty⟩)), 9⟩

/-- A field that refers to another one, which holds a computed shape, and a shape
with a property that refers to the first. -/
def stampStore : Store Float :=
  (((Store.empty.declare "A").bind "A" "copy"
    (.scalar (.symbolic (.reference (.field "A" "stamp"))))).bind "A" "stamp"
      (.scalar (.symbolic (.computation "stamp" [])))).bind "A" "frame"
        (.shape "Frame" (Table.empty.insert "x"
          (.symbolic (.reference (.field "A" "copy")))))

/-- The copy yields the stamp, and both fields keep their expressions; a property
that refers to the copy yields nothing. -/
theorem shapes_come_through_fields_stamp :
    let copy : Path := .field "A" "copy"
    let stamp : Path := .field "A" "stamp"
    let position : Path := .property "A" "frame" "x"
    let start : Pass Unit Float := ⟨stampStore, (), []⟩
    let final : Pass Unit Float := ⟨stampStore, (),
      [.closed copy false, .closed stamp false, .opened stamp, .opened copy]⟩
    stamping.evalPathAt .empty 0 copy start =
      .ok (.shaped ⟨"Stamp", .empty⟩) final ∧
    stampStore.Leads .empty copy [copy] stamp ∧
    ∀ shape final,
      stamping.evalPathAt .empty 0 position start ≠ .ok (.shaped shape) final := by
  intro copy stamp position start final
  have ran : stamping.evalPathAt .empty 0 copy start =
      .ok (.shaped ⟨"Stamp", .empty⟩) final := by
    cbv
  obtain ⟨-, -, through⟩ :=
    stamping.shapes_come_through_fields .empty 0 "A" "copy" start
  obtain ⟨never, -, -⟩ :=
    stamping.shapes_come_through_fields .empty 0 "A" "frame" start
  obtain ⟨hops, last, own, middle, leads, -⟩ := through _ final ran
  refine ⟨ran, ?_, never "x"⟩
  have refers : stampStore.RefersTo .empty copy stamp := ⟨rfl, rfl⟩
  have computed : stampStore.content? stamp =
      some (.symbolic (.computation "stamp" [])) := by
    rfl
  cases leads with
  | stop ends => exact absurd refers (ends stamp)
  | hop first onward =>
      have same := refers.2.symm.trans first.2
      cases same
      cases onward with
      | stop ends => exact .hop refers (.stop ends)
      | hop second =>
          have same := computed.symm.trans second.2
          cases same

end Evaluator

end DiagramEnergy
