import DiagramEnergy.Proofs.Problem.Reached
import DiagramEnergy.Standard.Functions

/-!
# What default calls are evaluated to

A default call refers to the field of its own shape.  Such a reference stands in
an argument, two levels below the depth at which the shapes of a problem are
evaluated.  It yields the shape that the problem shows, or the budget runs out.
-/

namespace DiagramEnergy

variable {σ N : Type}

theorem Standard.arePure_computations [Scalar N] :
    (Standard.computations : Computations σ N).ArePure := by
  intro name computation registered
  have listed := List.mem_map_of_mem (f := Prod.snd)
    (Table.mem_of_get?_ofList registered)
  simp only [List.map_cons, List.map_nil, List.mem_cons, List.not_mem_nil,
    or_false] at listed
  rcases listed with rfl | rfl | rfl | rfl | rfl | rfl | rfl | rfl <;>
    exact Computation.isPure_ofFunction _

/-- The default calls of a shape refer to its own field. -/
theorem Store.of_mem_defaultCalls {store : Store N} {catalog : Catalog}
    {call : Call} (listed : call ∈ store.defaultCalls catalog) :
    ∃ object name kind properties,
      store.slot? object name = some (.shape kind properties) ∧
      call.arguments = [.reference (.field object name)] := by
  simp only [defaultCalls, List.mem_flatMap, Prod.exists, mem_slots_iff]
    at listed
  obtain ⟨object, name, slot, found, member⟩ := listed
  cases slot with
  | scalar content => cases member
  | shape kind properties =>
      refine ⟨object, name, kind, properties, found, ?_⟩
      simp only at member
      cases known : catalog.get? kind with
      | none =>
          rw [known] at member
          cases member
      | some definition =>
          rw [known] at member
          rcases List.mem_append.1 member with objective | constraint
          · obtain ⟨function, -, rfl⟩ := List.mem_map.1 objective
            rfl
          · obtain ⟨function, -, rfl⟩ := List.mem_map.1 constraint
            rfl

theorem Problem.mem_callsOf_iff {role : Role} {store : Store Float}
    {catalog : Catalog} {call : Call} :
    call ∈ callsOf role store catalog ↔
      (call ∈ store.declaredCalls ∨ call ∈ store.defaultCalls catalog) ∧
        call.role = role := by
  simp [callsOf, List.mem_filter, or_and_right]

namespace Evaluator

open ByName

variable [Scalar N] {evaluator : Evaluator σ N} {overrides : Overrides N}

/-- Calls leave a warm store behind, also when they fail. -/
theorem warm_evalCalls (pureComputations : evaluator.computations.ArePure)
    (calls : List Call) (pass : Pass σ N) :
    Warm evaluator.computations overrides pass.store
      (Evaluation.forget
        (calls.mapM (evaluator.evalCall overrides) pass)).2.store := by
  have completes := Completes.mapM calls fun call _ =>
    (Completes.mapM call.arguments fun argument _ =>
      (completes_descend pureComputations overrides pass.store
        (evaluator.limit - 1)).1 argument).andThen fun arguments =>
          Completes.pure (EvaluatedCall.mk call.role call.name arguments)
  rw [Erases.mapM (evaluator.erases_evalCall overrides) calls pass]
  exact (completes pass.memory warm_start).1

/-- A path that evaluates, on a fresh store, at the depth of a reference in an
argument of a call. -/
def FitsArgument (evaluator : Evaluator σ N) (overrides : Overrides N)
    (store : Store N) (path : Path) : Prop :=
  ∃ (pass : Pass σ N) (result : Evaluated N), pass.store = store ∧
    (Evaluation.forget (evaluator.evalPathAt overrides 2 path pass)).1 =
      .ok result

variable {call : Call} {path : Path}

/-- A reference in an argument succeeds just as its path does one level below. -/
theorem run_descendExpr_argument_iff {result : Evaluated N}
    {memory : Memory σ N} :
    ((evaluator.descendExpr overrides true (evaluator.limit - 1)
      (.reference path)).run memory).1 = .ok result ↔
    ((evaluator.descendPath overrides true (evaluator.limit - 2)
      path).run memory).1 = .ok result := by
  cases budget : evaluator.limit - 1 with
  | zero =>
      have below : evaluator.limit - 2 = 0 := by omega
      rw [below]
      constructor
      · intro succeeded
        cases succeeded
      · intro succeeded
        cases succeeded
  | succ rest =>
      have below : evaluator.limit - 2 = rest := by omega
      rw [below, descendExpr_reference]

theorem run_descendCall_referring
    (referring : call.arguments = [.reference path]) (memory : Memory σ N) :
    ((evaluator.descendCall overrides call).run memory).1 =
      (fun result => ⟨call.role, call.name, [result]⟩) <$>
        ((evaluator.descendExpr overrides true (evaluator.limit - 1)
          (.reference path)).run memory).1 := by
  simp only [descendCall, referring, List.mapM_cons, List.mapM_nil]
  rw [bind_assoc, Descent.run_bind]
  cases (evaluator.descendExpr overrides true (evaluator.limit - 1)
      (.reference path)).run memory with
  | mk outcome later => cases outcome <;> rfl

variable {result : Evaluated N} {start : Store N}

/-- A call that refers to a path gets what the path evaluates to by name, or the
budget runs out. -/
theorem run_descendCall_of_evaluates
    (pureComputations : evaluator.computations.ArePure)
    (referring : call.arguments = [.reference path])
    (evaluates : Evaluates evaluator.computations start overrides
      (.reference path) (.ok result)) {memory : Memory σ N}
    (warm : Warm evaluator.computations overrides start memory.store) :
    ((evaluator.descendCall overrides call).run memory).1 =
        .ok ⟨call.role, call.name, [result]⟩ ∨
      ∃ error, ((evaluator.descendCall overrides call).run memory).1 =
        .error error ∧ error.isLimit = true := by
  have : Nonempty σ := ⟨memory.world⟩
  rw [run_descendCall_referring referring]
  have answered := ((sound_descend pureComputations overrides start true
    (evaluator.limit - 1)).1 (.reference path) memory warm.remembers).2
  cases outcome : ((evaluator.descendExpr overrides true (evaluator.limit - 1)
      (.reference path)).run memory).1 with
  | ok found =>
      rw [outcome] at answered
      cases answered.ok.deterministic evaluates
      exact .inl rfl
  | error error =>
      rw [outcome] at answered
      rcases answered with spent | evaluation
      · exact .inr ⟨error, rfl, spent⟩
      · cases evaluation.deterministic evaluates

/-- What fits an argument on a fresh store does so on every warm one. -/
theorem run_descendCall_of_fits
    (pureComputations : evaluator.computations.ArePure)
    (referring : call.arguments = [.reference path])
    (fits : evaluator.FitsArgument overrides start path) {memory : Memory σ N}
    (warm : Warm evaluator.computations overrides start memory.store) :
    ∃ evaluated,
      ((evaluator.descendCall overrides call).run memory).1 =
        .ok evaluated := by
  obtain ⟨pass, result, rfl, succeeded⟩ := fits
  rw [forget_evalPathAt] at succeeded
  have follows := (follows_descend pureComputations overrides pass.store true
    (evaluator.limit - 2)).2 path
  have there := (follows pass.memory memory (warmer_start warm) result
    succeeded).1
  rw [run_descendCall_referring referring,
    run_descendExpr_argument_iff.2 there]
  exact ⟨_, rfl⟩

theorem fits_of_run_descendCall {pass : Pass σ N}
    (referring : call.arguments = [.reference path])
    {evaluated : EvaluatedCall N}
    (succeeded : ((evaluator.descendCall overrides call).run
      pass.memory).1 = .ok evaluated) :
    evaluator.FitsArgument overrides pass.store path := by
  rw [run_descendCall_referring referring] at succeeded
  cases found : ((evaluator.descendExpr overrides true (evaluator.limit - 1)
      (.reference path)).run pass.memory).1 with
  | error error =>
      rw [found] at succeeded
      cases succeeded
  | ok result =>
      refine ⟨pass, result, rfl, ?_⟩
      rw [forget_evalPathAt]
      exact run_descendExpr_argument_iff.1 found

end Evaluator

namespace Problem

variable {problem : Problem σ} {values : List Float}
  {shapes : List (Shape Float)}

/-- With pure computations, wherever the shapes of an assembled problem can be
evaluated, its energy evaluates the argument of each default call, after any
other calls, to the shape of the problem at the field of the call, or the budget
runs out.  The budget lasts if the field evaluates two levels further down on a
fresh store, and for a call on a fresh store only then. -/
theorem defaultCalls_show_shapes {detail : Option Level} {store : Store Float}
    {catalog : Catalog} {registries : Registries σ Float} {config : Config}
    {run later : RunState σ}
    (pureComputations : registries.computations.ArePure)
    (ran : assemble detail store catalog registries config run =
      .ok problem later) :
    (∀ seen, (problem.shapesAt problem.varyingState).outcome seen =
      .ok problem.shapes) ∧
    ∀ values shapes seen,
      (problem.shapesAt values).outcome seen = .ok shapes →
    ∃ overrides,
      Overrides.ofParts problem.varyingPaths values = .ok overrides ∧
    ∀ call ∈ problem.store.defaultCalls catalog,
      call ∈ problem.energy.objectives ++ problem.energy.constraints ∧
    ∃ path shape, call.arguments = [.reference path] ∧
      (path, shape) ∈ problem.shapeNames.zip shapes ∧
    ∀ (earlier : List Call) (fresh reached : Pass σ Float),
      fresh.store = problem.store →
      reached.memory = (Evaluation.forget
        (earlier.mapM (problem.energy.ownEvaluator.evalCall overrides)
          fresh)).2 →
      let outcome := (Evaluation.forget
        (problem.energy.ownEvaluator.evalCall overrides call reached)).1
      let expected := EvaluatedCall.mk call.role call.name [.shaped shape]
      (outcome = .ok expected ∨
        ∃ error, outcome = .error error ∧ error.isLimit = true) ∧
      (problem.energy.ownEvaluator.FitsArgument overrides problem.store path →
        outcome = .ok expected) ∧
      (earlier = [] → outcome = .ok expected →
        problem.energy.ownEvaluator.FitsArgument overrides problem.store
          path) := by
  have assembled := assembled_of_assemble ran
  have settled := assembled.settled
  have ownPure : problem.energy.registries.computations.ArePure := by
    rw [settled.ownRegistries]
    exact pureComputations
  refine ⟨settled.shown.gives ownPure, ?_⟩
  intro values shapes seen shown
  obtain ⟨overrides, paired, sameLength, evaluates⟩ :=
    (shows_of_outcome shown).evaluates ownPure
  refine ⟨overrides, paired, ?_⟩
  intro call listed
  constructor
  · simp only [assembled.energy, assembled.objectives, assembled.constraints,
      List.mem_append, mem_callsOf_iff]
    cases role : call.role with
    | objective => exact .inl ⟨.inr listed, rfl⟩
    | constraint => exact .inr ⟨.inr listed, rfl⟩
  · obtain ⟨object, name, kind, properties, found, referring⟩ :=
      Store.of_mem_defaultCalls listed
    have named : .field object name ∈ problem.shapeNames := by
      rw [settled.shapeNames]
      exact Store.mem_shapePaths_iff.2
        ⟨object, name, kind, properties, found, rfl⟩
    obtain ⟨shape, member⟩ := exists_mem_zip sameLength named
    refine ⟨.field object name, shape, referring, member, ?_⟩
    intro earlier fresh reached start left outcome expected
    have warm : ByName.Warm problem.energy.ownEvaluator.computations overrides
        fresh.store (Evaluation.forget (earlier.mapM
          (problem.energy.ownEvaluator.evalCall overrides) fresh)).2.store :=
      Evaluator.warm_evalCalls ownPure earlier fresh
    rw [← left, start] at warm
    have same : outcome = ((problem.energy.ownEvaluator.descendCall overrides
        call).run reached.memory).1 :=
      congrArg Prod.fst
        (problem.energy.ownEvaluator.erases_evalCall overrides call reached)
    have answered := Evaluator.run_descendCall_of_evaluates ownPure referring
      (evaluates _ shape member) warm
    rw [← same] at answered
    refine ⟨answered, ?_, ?_⟩
    · intro fits
      obtain ⟨evaluated, succeeded⟩ :=
        Evaluator.run_descendCall_of_fits ownPure referring fits warm
      rw [← same] at succeeded
      rcases answered with expected | ⟨error, failed, -⟩
      · exact expected
      · rw [failed] at succeeded
        cases succeeded
    · intro alone succeeded
      subst alone
      have fits : problem.energy.ownEvaluator.FitsArgument overrides
          reached.store (.field object name) :=
        Evaluator.fits_of_run_descendCall referring
          (same.symm.trans succeeded)
      have unchanged : reached.store = problem.store := by
        have kept := congrArg Memory.store left
        exact kept.trans start
      rw [unchanged] at fits
      exact fits

/-! ## A disc -/

/-- A catalog with one kind, whose shapes have to be large enough. -/
def discCatalog : Catalog :=
  ⟨Table.empty.insert "Disc" {
    properties := Table.empty.insert "r"
      { type := .float, sampler := .fixed (.float 1) }
    defaultConstraints := ["minSize"] }⟩

def discStore : Store Float :=
  (Store.empty.declare "A").bind "A" "disc" (.shape "Disc" .empty)

/-- The store with one disc, whose radius has been sampled. -/
def sampledDiscStore : Store Float :=
  (Store.empty.declare "A").bind "A" "disc"
    (.shape "Disc" (Table.empty.insert "r" (.concrete (.float 1))))

def discCall : Call :=
  ⟨.constraint, "minSize", [.reference (.field "A" "disc")]⟩

/-- The problem of one disc with a limited budget. -/
def assembleDisc (limit : Nat) : Run Unit (Problem Unit) :=
  assemble none discStore discCatalog Standard.registries
    { recursionLimit := limit }

theorem succeeds_assembleDisc {limit : Nat} (known : limit = 2 ∨ limit = 4) :
    (assembleDisc limit).Succeeds () := by
  have valid : Config.validate { recursionLimit := limit } = .ok () := by
    rcases known with rfl | rfl
    · rfl
    · rfl
  have drawn : (sample discStore discCatalog { recursionLimit := limit }
      (discStore.varyingPaths discCatalog)).run ⟨16⟩ =
        (⟨sampledDiscStore, []⟩, ⟨16⟩) := by
    rfl
  have shaped : Evaluation.forget ((Evaluator.capped
      Standard.computations limit).evalShapes .empty
        sampledDiscStore.shapePaths ⟨sampledDiscStore, (), []⟩) =
          (.ok [.assembled (.field "A" "disc") "Disc" [("r", .float 1)]],
            ⟨sampledDiscStore, ()⟩) := by
    rcases known with rfl | rfl
    · cbv
    · cbv
  exact succeeds_assemble none valid rfl rfl (by decide) drawn rfl shaped rfl

theorem store_of_assembleDisc {limit : Nat} {run later : RunState Unit}
    {problem : Problem Unit}
    (ran : assembleDisc limit run = .ok problem later) :
    problem.store = sampledDiscStore := by
  obtain ⟨notices, drawn⟩ := (assembled_of_assemble ran).sampled
  exact (congrArg (·.1.store) drawn).symm

theorem ownEvaluator_of_assembleDisc {limit : Nat} {run later : RunState Unit}
    {problem : Problem Unit}
    (ran : assembleDisc limit run = .ok problem later) :
    problem.energy.ownEvaluator = .capped Standard.computations limit := by
  rw [(assembled_of_assemble ran).energy]
  rfl

/-- A budget of four is enough for the call. -/
theorem fitsArgument_disc (number : Float) :
    (.capped Standard.computations 4 : Evaluator Unit Float).FitsArgument
      ⟨.ofList ((discStore.varyingPaths discCatalog).zip [number])⟩
      sampledDiscStore (.field "A" "disc") := by
  have evaluated : (Evaluation.forget
      ((.capped Standard.computations 4 : Evaluator Unit Float).evalPathAt
        ⟨.ofList ((discStore.varyingPaths discCatalog).zip [number])⟩ 2
        (.field "A" "disc") ⟨sampledDiscStore, (), []⟩)).1 =
          .ok (.shaped (.assembled (.field "A" "disc") "Disc"
            [("r", .float number)])) := by
    cbv
  exact ⟨_, _, rfl, evaluated⟩

/-- A budget of two is enough for the shape and too small for the call. -/
theorem not_defaultCall_shows_disc :
    ∃ (problem : Problem Unit) (later : RunState Unit),
      assembleDisc 2 ⟨(), []⟩ = .ok problem later ∧
      (∀ seen, (problem.shapesAt problem.varyingState).outcome seen =
        .ok problem.shapes) ∧
      discCall ∈ problem.store.defaultCalls discCatalog ∧
      ∀ overrides (pass : Pass Unit Float), pass.store = problem.store →
        (Evaluation.forget (problem.energy.ownEvaluator.evalCall overrides
          discCall pass)).1 = .error (.recursionLimit 2 "A.disc") := by
  obtain ⟨problem, later, ran⟩ :=
    succeeds_assembleDisc (.inl rfl) ⟨(), []⟩ rfl
  have assembled := assembled_of_assemble ran
  refine ⟨problem, later, ran, ?_, ?_, ?_⟩
  · apply assembled.shows.gives
    rw [assembled.energy]
    exact Standard.arePure_computations
  · rw [store_of_assembleDisc ran]
    exact List.mem_singleton_self _
  · intro overrides pass _
    rw [ownEvaluator_of_assembleDisc ran]
    rfl

theorem defaultCall_shows_disc :
    (Standard.computations : Computations Unit Float).ArePure ∧
    ∃ (problem : Problem Unit) (later : RunState Unit)
      (overrides : Overrides Float) (shape : Shape Float),
      assembleDisc 4 ⟨(), []⟩ = .ok problem later ∧
      Overrides.ofParts problem.varyingPaths problem.varyingState =
        .ok overrides ∧
      (.field "A" "disc", shape) ∈ problem.shapeNames.zip problem.shapes ∧
      (Evaluation.forget (problem.energy.ownEvaluator.evalCall overrides
        discCall ⟨problem.store, (), []⟩)).1 =
          .ok ⟨.constraint, "minSize", [.shaped shape]⟩ := by
  obtain ⟨problem, later, ran⟩ :=
    succeeds_assembleDisc (.inr rfl) ⟨(), []⟩ rfl
  have store := store_of_assembleDisc ran
  have listed : discCall ∈ problem.store.defaultCalls discCatalog := by
    rw [store]
    exact List.mem_singleton_self _
  have pureComputations :
      (Standard.registries : Registries Unit Float).computations.ArePure :=
    Standard.arePure_computations
  have shapes := defaultCalls_show_shapes pureComputations ran
  obtain ⟨overrides, paired, calls⟩ := shapes.2 problem.varyingState
    problem.shapes ⟨(), []⟩ (shapes.1 ⟨(), []⟩)
  obtain ⟨-, path, shape, referring, member, outcome⟩ := calls _ listed
  cases referring
  have fits : problem.energy.ownEvaluator.FitsArgument overrides
      problem.store (.field "A" "disc") := by
    have varying := (assembled_of_assemble ran).varyingPaths
    obtain ⟨sameLength, rfl⟩ := Overrides.ofParts_eq_ok_iff.1 paired
    rw [varying] at sameLength ⊢
    obtain ⟨number, only⟩ := List.length_eq_one_iff.1 sameLength.symm
    rw [only, store, ownEvaluator_of_assembleDisc ran]
    exact fitsArgument_disc number
  have evaluated := (outcome [] ⟨problem.store, (), []⟩
    ⟨problem.store, (), []⟩ rfl rfl).2.1 fits
  exact ⟨Standard.arePure_computations, problem, later, overrides, shape, ran,
    paired, member, evaluated⟩

end Problem

end DiagramEnergy
