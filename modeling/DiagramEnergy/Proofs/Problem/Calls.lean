import DiagramEnergy.Proofs.Problem.Complete
import DiagramEnergy.Proofs.Problem.DefaultCalls
import DiagramEnergy.Proofs.StandardFailures
import DiagramEnergy.Proofs.Store.Slots
import Mathlib.Data.List.Basic

/-!
# Which calls a problem scores

The calls of a problem are collected from a store that sampling has rewritten.
Main statement: they are nevertheless the calls of the store that was given, in
its order, the declared ones before those that the kinds of its shapes bring
along; each one is scored for its role and registered for it.
-/

namespace DiagramEnergy

open DiagramEnergy.Except (FailsWith)

variable {σ N β : Type}

/-- The call that a field content stands for, if it is one with a given role. -/
def Content.call? (role : Role) : Content N → Option Call
  | .symbolic (.objective name arguments) =>
      if role = .objective then some ⟨role, name, arguments⟩ else none
  | .symbolic (.constraint name arguments) =>
      if role = .constraint then some ⟨role, name, arguments⟩ else none
  | _ => none

/-- The functions of one role that every shape of a kind brings along. -/
def ShapeDef.defaults (role : Role) (definition : ShapeDef) : List String :=
  match role with
  | .objective => definition.defaultObjectives
  | .constraint => definition.defaultConstraints

namespace Store

/-- The calls of one role that stand alone in a field, in the order of the
store. -/
def declaredAs (role : Role) (store : Store N) : List Call :=
  store.slots.filterMap fun (_, _, slot) =>
    match slot with
    | .scalar content => content.call? role
    | .shape _ _ => none

/-- The calls of one role that shapes bring along, in the order of the store and
for each shape in that of the catalog. -/
def broughtAs (role : Role) (store : Store N) (catalog : Catalog) : List Call :=
  store.slots.flatMap fun (object, name, slot) =>
    match slot with
    | .scalar _ => []
    | .shape kind _ =>
      match catalog.get? kind with
      | none => []
      | some definition => (definition.defaults role).map fun function =>
          ⟨role, function, [.reference (.field object name)]⟩

/-! ## Calls by role -/

theorem filter_declaredCalls (role : Role) (store : Store N) :
    (store.declaredCalls.filter fun call => call.role == role) =
      store.declaredAs role := by
  rw [declaredCalls, List.filter_filterMap, declaredAs]
  congr 1
  funext member
  obtain ⟨object, name, slot⟩ := member
  cases slot with
  | shape kind properties => rfl
  | scalar content =>
      cases content with
      | concrete value => rfl
      | symbolic expr => cases expr <;> cases role <;> rfl

theorem filter_calls_of_role (role other : Role) (functions : List String)
    (arguments : List Expr) :
    ((functions.map fun function => Call.mk other function arguments).filter
      fun call => call.role == role) =
      if other = role then
        functions.map fun function => Call.mk role function arguments
      else [] := by
  split
  case isTrue same =>
    subst same
    rw [List.filter_eq_self]
    intro call member
    obtain ⟨function, -, rfl⟩ := List.mem_map.1 member
    exact beq_self_eq_true other
  case isFalse different =>
    rw [List.filter_eq_nil_iff]
    intro call member
    obtain ⟨function, -, rfl⟩ := List.mem_map.1 member
    simpa using different

theorem filter_defaultCalls (role : Role) (store : Store N)
    (catalog : Catalog) :
    ((store.defaultCalls catalog).filter fun call => call.role == role) =
      store.broughtAs role catalog := by
  rw [defaultCalls, List.filter_flatMap, broughtAs]
  congr 1
  funext member
  obtain ⟨object, name, slot⟩ := member
  cases slot with
  | scalar content => rfl
  | shape kind properties =>
      simp only
      cases catalog.get? kind with
      | none => rfl
      | some definition =>
          simp only [List.filter_append, filter_calls_of_role]
          cases role <;> simp [ShapeDef.defaults]

theorem mem_broughtAs_iff {role : Role} {store : Store N} {catalog : Catalog}
    {call : Call} :
    call ∈ store.broughtAs role catalog ↔
      ∃ object name kind properties schema function,
        store.slot? object name = some (.shape kind properties) ∧
        catalog.get? kind = some schema ∧ function ∈ schema.defaults role ∧
        call = ⟨role, function, [.reference (.field object name)]⟩ := by
  simp only [broughtAs, List.mem_flatMap, Prod.exists, mem_slots_iff]
  constructor
  · rintro ⟨object, name, slot, found, member⟩
    cases slot with
    | scalar content => cases member
    | shape kind properties =>
        simp only at member
        cases known : catalog.get? kind with
        | none =>
            rw [known] at member
            cases member
        | some schema =>
            rw [known] at member
            obtain ⟨function, listed, rfl⟩ := List.mem_map.1 member
            exact ⟨object, name, kind, properties, schema, function, found,
              known, listed, rfl⟩
  · rintro ⟨object, name, kind, properties, schema, function, found, known,
      listed, rfl⟩
    refine ⟨object, name, _, found, ?_⟩
    simp only [known]
    exact List.mem_map.2 ⟨function, listed, rfl⟩

end Store

theorem Problem.callsOf_eq (role : Role) (store : Store Float)
    (catalog : Catalog) :
    callsOf role store catalog =
      store.declaredAs role ++ store.broughtAs role catalog := by
  rw [callsOf, List.filter_append, Store.filter_declaredCalls,
    Store.filter_defaultCalls]

/-! ## Calls after sampling -/

namespace Store

theorem isSome_slot?_eq (store : Store N) (object name : String) :
    (store.slot? object name).isSome =
      ((store.content? (.field object name)).isSome ||
        (store.kind? object name).isSome) := by
  rw [content?_eq_slot?, kind?]
  simp only [Path.object, Path.fieldName]
  cases store.slot? object name with
  | none => rfl
  | some slot => cases slot <;> rfl

/-- Lists over the slots go through the names of the slots. -/
theorem flatMap_slots (store : Store N)
    (listed : String × String × Slot N → List β) :
    store.slots.flatMap listed = store.slotNames.flatMap fun names =>
      match store.slot? names.1 names.2 with
      | none => []
      | some slot => listed (names.1, names.2, slot) := by
  rw [slotNames, List.flatMap_map]
  apply List.flatMap_congr
  rintro ⟨object, name, slot⟩ member
  simp only [mem_slots_iff.1 member]

end Store

/-- What sampling can make of a slot, apart from the properties of a shape. -/
inductive Slot.Samples : Slot N → Slot N → Prop where
  | kept (content : Content N) : Samples (.scalar content) (.scalar content)
  | drawn (number : N) :
      Samples (.scalar (.symbolic .vary)) (.scalar (.concrete (.float number)))
  | shape (kind : String) (before after : Table String (Content N)) :
      Samples (.shape kind before) (.shape kind after)

namespace Problem

section Sampled

variable {store sampled : Store Float} {catalog : Catalog} {config : Config}
  {generator : Generator} (drawn : ((sample store catalog config
    (store.varyingPaths catalog)).run generator).1.store = sampled)
include drawn

/-- Sampling puts a float where a field is marked and leaves other fields
alone. -/
theorem content?_sample_field (object name : String) :
    (store.content? (.field object name) = some (.symbolic .vary) ∧
      ∃ number, sampled.content? (.field object name) =
        some (.concrete (.float number))) ∨
    sampled.content? (.field object name) =
      store.content? (.field object name) := by
  obtain ⟨reached, same⟩ := store_sample store catalog config
    (store.varyingPaths catalog) generator
  have shaped : sampled.content? (.field object name) =
      ((Sampling.fields store (store.varyingPaths catalog) config.canvas).run
        generator).1.store.content? (.field object name) := by
    rw [← drawn, same, Sampling.content?_shapes_field]
  rw [shaped]
  by_cases marked :
      store.slot? object name = some (.scalar (.symbolic .vary))
  · refine .inl ⟨?_, Sampling.content?_fields marked⟩
    rw [Store.content?_eq_slot?]
    simp [Path.object, Path.fieldName, marked, Slot.contentAt]
  · right
    rw [Store.content?_eq_slot?, Store.content?_eq_slot?]
    simp only [Path.object, Path.fieldName, Sampling.slot?_fields catalog
      config.canvas generator marked]

theorem slotNames_sample : sampled.slotNames = store.slotNames := by
  apply Store.slotNames_eq_of_isSome
  intro object name
  have kinds : sampled.kind? object name = store.kind? object name := by
    rw [← drawn, kind?_sample]
  rw [Store.isSome_slot?_eq, Store.isSome_slot?_eq, kinds]
  rcases content?_sample_field drawn object name with
    ⟨marked, number, found⟩ | same
  · rw [marked, found]
    rfl
  · rw [same]

theorem slot?_sample {object name : String} {before : Slot Float}
    (found : store.slot? object name = some before) :
    ∃ after, sampled.slot? object name = some after ∧ before.Samples after := by
  have listed : (object, name) ∈ sampled.slotNames := by
    rw [slotNames_sample drawn, Store.mem_slotNames_iff, found]
    rfl
  obtain ⟨after, there⟩ :=
    Option.isSome_iff_exists.1 (Store.mem_slotNames_iff.1 listed)
  refine ⟨after, there, ?_⟩
  have kinds : sampled.kind? object name = store.kind? object name := by
    rw [← drawn, kind?_sample]
  have contents := content?_sample_field drawn object name
  simp only [Store.content?_eq_slot?, Store.kind?, Path.object, Path.fieldName,
    found, there, Option.bind_some] at kinds contents
  cases before with
  | scalar content =>
      cases after with
      | shape kind properties => cases kinds
      | scalar now =>
          rcases contents with ⟨marked, number, concrete⟩ | kept
          · cases marked
            cases concrete
            exact .drawn number
          · cases kept
            exact .kept content
  | shape kind properties =>
      cases after with
      | scalar now => cases kinds
      | shape other now =>
          cases kinds
          exact .shape kind properties now

/-- Lists over the slots of a store that overlook what sampling does to a slot
are the same before and after. -/
theorem flatMap_slots_sample {listed : String × String × Slot Float → List β}
    (overlooks : ∀ object name before after, before.Samples after →
      listed (object, name, after) = listed (object, name, before)) :
    sampled.slots.flatMap listed = store.slots.flatMap listed := by
  rw [Store.flatMap_slots, Store.flatMap_slots, slotNames_sample drawn]
  apply List.flatMap_congr
  intro names member
  obtain ⟨before, found⟩ :=
    Option.isSome_iff_exists.1 (Store.mem_slotNames_iff.1 member)
  obtain ⟨after, there, samples⟩ := slot?_sample drawn found
  simp only [found, there]
  exact overlooks names.1 names.2 before after samples

theorem declaredCalls_sample :
    sampled.declaredCalls = store.declaredCalls := by
  rw [Store.declaredCalls, Store.declaredCalls,
    List.filterMap_eq_flatMap_toList, List.filterMap_eq_flatMap_toList]
  apply flatMap_slots_sample drawn
  intro object name before after samples
  cases samples <;> rfl

theorem defaultCalls_sample :
    sampled.defaultCalls catalog = store.defaultCalls catalog := by
  rw [Store.defaultCalls, Store.defaultCalls]
  apply flatMap_slots_sample drawn
  intro object name before after samples
  cases samples <;> rfl

/-- The calls of a sampled store are those of the store before. -/
theorem callsOf_sample (role : Role) :
    callsOf role sampled catalog =
      store.declaredAs role ++ store.broughtAs role catalog := by
  rw [callsOf, declaredCalls_sample drawn, defaultCalls_sample drawn, ← callsOf,
    callsOf_eq]

end Sampled

/-! ## Calls after assembly -/

theorem role_of_mem_callsOf {role : Role} {store : Store Float}
    {catalog : Catalog} {call : Call}
    (member : call ∈ callsOf role store catalog) : call.role = role :=
  (mem_callsOf_iff.1 member).2

theorem registered_of_mem_callsOf {registries : Registries σ Float} {role : Role}
    {store : Store Float} {catalog : Catalog} {call : Call}
    (member : call ∈ callsOf role store catalog)
    (known : registries.Knows call.role call.name) :
    call.role = role ∧ (registries.forRole role).contains call.name = true := by
  have same := role_of_mem_callsOf member
  rw [same] at known
  exact ⟨same, known⟩

theorem knows_of_checkCall {registries : Registries σ Float} {call : Call}
    (passed : checkCall registries call = .ok ()) :
    registries.Knows call.role call.name := by
  unfold checkCall at passed
  split at passed
  case isTrue known => exact known
  case isFalse => cases passed

variable {store : Store Float} {catalog : Catalog}
  {registries : Registries σ Float} {config : Config} {problem : Problem σ}

theorem Assembled.knows
    (assembled : Assembled store catalog registries config problem) {call : Call}
    (member : call ∈ problem.objectives ++ problem.constraints) :
    registries.Knows call.role call.name :=
  knows_of_checkCall (Except.ok_of_forM assembled.knownCalls member)

theorem Assembled.failsWith_evaluate
    (assembled : Assembled store catalog registries config problem)
    {sort : Error → Prop}
    (own : ∀ error : Error, error.IsEvaluation → sort error)
    (miscounted : ∀ context expected found,
      sort (.arity context expected found))
    (fail : registries.FailWith sort) (penaltyWeight : Float)
    (values : List Float) (run : RunState σ) :
    FailsWith sort
      ((problem.energy.evaluate penaltyWeight values).outcome run) := by
  apply Energy.failsWith_evaluate own miscounted
  · rw [assembled.energy]
    exact fail
  · rw [assembled.energy]
    exact fun call member => assembled.knows member

/-- The calls of an assembled problem are those of the store it was made of: in
the order of the store, the calls that stand alone in a field, and after them
those that the kinds of the shapes bring along.  They are the calls of its
energy, each scored for its own role and registered for it, so that only the
registered functions themselves could miss a function. -/
theorem calls_of_assemble {detail : Option Level} {run later : RunState σ}
    (ran : assemble detail store catalog registries config run =
      .ok problem later) :
    problem.objectives =
      store.declaredAs .objective ++ store.broughtAs .objective catalog ∧
    problem.constraints =
      store.declaredAs .constraint ++ store.broughtAs .constraint catalog ∧
    problem.energy.objectives = problem.objectives ∧
    problem.energy.constraints = problem.constraints ∧
    (∀ call ∈ problem.objectives, call.role = .objective ∧
      registries.objectives.contains call.name = true) ∧
    (∀ call ∈ problem.constraints, call.role = .constraint ∧
      registries.constraints.contains call.name = true) ∧
    ((∀ name computation,
        registries.computations.get? name = some computation →
        ∀ arguments world role function,
          ((computation arguments).run world).1 ≠
            .error (.unknownFunction role function)) →
      (∀ role name signature score,
        (registries.forRole role).functions.get? name =
          some (signature, score) →
        ∀ arguments other function,
          score arguments ≠ .error (.unknownFunction other function)) →
      ∀ penaltyWeight values state role function,
        (problem.energy.evaluate penaltyWeight values).outcome state ≠
          .error (.unknownFunction role function)) := by
  have assembled := assembled_of_assemble ran
  obtain ⟨notices, drawn⟩ := assembled.sampled
  have calls := callsOf_sample (congrArg (·.1.store) drawn)
  refine ⟨?_, ?_, ?_, ?_, ?_, ?_, ?_⟩
  · rw [assembled.objectives, calls]
  · rw [assembled.constraints, calls]
  · rw [assembled.energy]
  · rw [assembled.energy]
  · intro call member
    have known := assembled.knows (List.mem_append_left _ member)
    rw [assembled.objectives] at member
    exact registered_of_mem_callsOf member known
  · intro call member
    have known := assembled.knows (List.mem_append_right _ member)
    rw [assembled.constraints] at member
    exact registered_of_mem_callsOf member known
  · intro computations functions penaltyWeight values state role function failed
    have fail : registries.FailWith fun error =>
        ∀ role function, error ≠ .unknownFunction role function :=
      ⟨fun name computation found arguments world => FailsWith.of_ne
          (computations name computation found arguments world),
        fun role name signature score found arguments => FailsWith.of_ne
          (functions role name signature score found arguments)⟩
    have fails := assembled.failsWith_evaluate
      (fun error own role function same => by rw [same] at own; exact own)
      (fun context expected found role function same => by cases same)
      fail penaltyWeight values state
    rw [failed] at fails
    exact fails role function rfl

/-! ## A disc with a goal -/

def nearCall : Call :=
  ⟨.objective, "near", [.reference (.field "A" "disc"), .reference (.field "A" "disc")]⟩

/-- The disc with an objective, and with a function that is to be avoided. -/
def goalStore (store : Store Float) : Store Float :=
  (store.bind "A" "goal" (.scalar (.symbolic (.objective "near" nearCall.arguments)))).bind
    "A" "limit" (.scalar (.symbolic (.avoid "near" nearCall.arguments)))

theorem calls_of_assemble_goal :
    ∃ (problem : Problem Unit) (later : RunState Unit),
      assemble none (goalStore discStore) discCatalog Standard.registries
        { recursionLimit := 4 } ⟨(), []⟩ = .ok problem later ∧
      problem.energy.objectives = [nearCall] ∧
      problem.energy.constraints = [discCall] ∧
      ∀ penaltyWeight values state role function,
        (problem.energy.evaluate penaltyWeight values).outcome state ≠
          .error (.unknownFunction role function) := by
  have drawn : (sample (goalStore discStore) discCatalog { recursionLimit := 4 }
      ((goalStore discStore).varyingPaths discCatalog)).run ⟨16⟩ =
        (⟨goalStore sampledDiscStore, []⟩, ⟨16⟩) := by
    rfl
  have shaped : Evaluation.forget ((Evaluator.capped
      Standard.computations 4).evalShapes .empty
        (goalStore sampledDiscStore).shapePaths
        ⟨goalStore sampledDiscStore, (), []⟩) =
          (.ok [.assembled (.field "A" "disc") "Disc" [("r", .float 1)]],
            ⟨goalStore sampledDiscStore, ()⟩) := by
    cbv
  have succeeds : (assemble none (goalStore discStore) discCatalog
      Standard.registries { recursionLimit := 4 }).Succeeds () :=
    succeeds_assemble none rfl rfl rfl (by decide) drawn rfl shaped rfl
  obtain ⟨problem, later, ran⟩ := succeeds ⟨(), []⟩ rfl
  obtain ⟨objectives, constraints, ownObjectives, ownConstraints, -, -, never⟩ :=
    calls_of_assemble ran
  refine ⟨problem, later, ran, ?_, ?_, ?_⟩
  · rw [ownObjectives, objectives]
    rfl
  · rw [ownConstraints, constraints]
    rfl
  · have fail : (Standard.registries : Registries Unit Float).FailWith
        fun error => ∀ role function, error ≠ .unknownFunction role function :=
      Standard.failWith_registries
        (fun error own role function same => by rw [same] at own; exact own)
        (fun context expected found role function same => by cases same)
    apply never
    · intro name computation found arguments world role function failed
      have fails := fail.computations name computation found arguments world
      rw [failed] at fails
      exact fails role function rfl
    · intro role name signature score found arguments other function failed
      have fails := fail.scores role name signature score found arguments
      rw [failed] at fails
      exact fails other function rfl

end Problem

end DiagramEnergy
