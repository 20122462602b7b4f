import DiagramEnergy.Problem
import DiagramEnergy.Proofs.Energy

/-!
# Assembling a problem

Assembly succeeds once the settings, the catalog, the kinds and the calls pass
their checks, something varies, all shapes evaluate and all initial values can
be read.  The problem then records what was sampled, found and evaluated.
-/

namespace DiagramEnergy

variable {σ N α : Type}

theorem Energy.remarks_compile (store : Store N)
    (objectives constraints : List Call) (varyingPaths : List Path)
    (registries : Registries σ N) (config : Config) :
    (compile store objectives constraints varyingPaths registries
      config).Remarks ⟨store, objectives, constraints, varyingPaths, registries,
        config.constraintWeight, config.recursionLimit⟩ :=
  (Run.Remarks.note _).bind (.pure _)

theorem Energy.remarks_evaluator (energy : Energy σ N) :
    energy.evaluator.Remarks energy.ownEvaluator :=
  .evaluator energy.registries.computations energy.recursionLimit

namespace Problem

/-- What has been checked, sampled, found and evaluated in an assembly. -/
structure Assembled (store : Store Float) (catalog : Catalog)
    (registries : Registries σ Float) (config : Config)
    (problem : Problem σ) : Prop where
  validConfig : config.validate = .ok ()
  validCatalog : catalog.validate = .ok ()
  knownKinds : checkKinds store catalog = .ok ()
  varyingPaths : problem.varyingPaths = store.varyingPaths catalog
  someVarying : problem.varyingPaths ≠ []
  uninitializedPaths :
    problem.uninitializedPaths = store.uninitializedPaths catalog
  sampled : ∃ notices, (sample store catalog config
    (store.varyingPaths catalog)).run ⟨config.seed⟩ =
      (⟨problem.store, notices⟩, problem.generator)
  shapeNames : problem.shapeNames = problem.store.shapePaths
  shapePropertyPaths : problem.shapePropertyPaths = problem.store.propertyPaths
  objectives : problem.objectives = callsOf .objective problem.store catalog
  constraints : problem.constraints = callsOf .constraint problem.store catalog
  knownCalls : (problem.objectives ++ problem.constraints).forM
    (checkCall registries) = .ok ()
  energy : problem.energy = ⟨problem.store, problem.objectives,
    problem.constraints, problem.varyingPaths, registries,
    config.constraintWeight, config.recursionLimit⟩
  evaluated : ∃ world,
    let ended := Evaluation.forget (problem.energy.ownEvaluator.evalShapes
      .empty problem.shapeNames ⟨problem.store, world, []⟩)
    ended.1 = .ok problem.shapes ∧
      problem.varyingPaths.mapM (initialValue ended.2.store) =
        .ok problem.varyingState
  penaltyWeight : problem.penaltyWeight = config.initialPenaltyWeight
  phase : problem.phase = .newIteration

theorem result_of_remark {remarks : Bool} {remark : Run σ Unit}
    {result found : α} {run later : RunState σ}
    (ran : (if remarks = true then remark >>= fun _ => pure result
      else pure result : Run σ α) run = .ok found later) : found = result := by
  cases remarks with
  | false =>
      cases ran
      rfl
  | true =>
      obtain ⟨_, _, -, returned⟩ := of_bind_ok ran
      cases returned
      rfl

/-- An assembly that succeeds has passed all checks. -/
theorem assembled_of_assemble {detail : Option Level} {store : Store Float}
    {catalog : Catalog} {registries : Registries σ Float} {config : Config}
    {run later : RunState σ} {problem : Problem σ}
    (ran : assemble detail store catalog registries config run =
      .ok problem later) :
    Assembled store catalog registries config problem := by
  unfold assemble at ran
  obtain ⟨_, _, checked, ran⟩ := of_bind_ok ran
  obtain ⟨validConfig, -⟩ := Run.ofExcept_ok checked
  obtain ⟨_, _, checked, ran⟩ := of_bind_ok ran
  obtain ⟨validCatalog, -⟩ := Run.ofExcept_ok checked
  obtain ⟨_, _, checked, ran⟩ := of_bind_ok ran
  obtain ⟨knownKinds, -⟩ := Run.ofExcept_ok checked
  obtain ⟨_, _, -, ran⟩ := of_bind_ok ran
  -- The sampled store stays a name, so that no draw is ever computed.
  cases drawn : (sample store catalog config
      (store.varyingPaths catalog)).run ⟨config.seed⟩ with
  | mk sampled generator =>
      simp only [drawn] at ran
      by_cases none : (store.varyingPaths catalog).isEmpty = true
      · rw [if_pos none] at ran
        obtain ⟨_, _, thrown, -⟩ := of_bind_ok ran
        cases thrown
      · rw [if_neg none] at ran
        obtain ⟨_, _, -, ran⟩ := of_bind_ok ran
        obtain ⟨_, _, -, ran⟩ := of_bind_ok ran
        obtain ⟨_, _, checked, ran⟩ := of_bind_ok ran
        obtain ⟨knownCalls, -⟩ := Run.ofExcept_ok checked
        obtain ⟨energy, _, compiled, ran⟩ := of_bind_ok ran
        have compiledEnergy := (Energy.remarks_compile _ _ _ _ _ _).result_eq
          compiled
        subst compiledEnergy
        obtain ⟨evaluator, _, made, ran⟩ := of_bind_ok ran
        have ownEvaluator := (Energy.remarks_evaluator _).result_eq made
        subst ownEvaluator
        obtain ⟨passed, _, passes, ran⟩ := of_bind_ok ran
        have ended := Run.pass_ok passes
        subst ended
        obtain ⟨shapes, _, shaped, ran⟩ := of_bind_ok ran
        obtain ⟨evaluated, -⟩ := Run.ofExcept_ok shaped
        obtain ⟨values, _, read, ran⟩ := of_bind_ok ran
        obtain ⟨valued, -⟩ := Run.ofExcept_ok read
        have built := result_of_remark ran
        subst built
        exact {
          validConfig, validCatalog, knownKinds, knownCalls
          varyingPaths := rfl
          someVarying := by simpa using none
          uninitializedPaths := rfl
          sampled := ⟨_, drawn⟩
          shapeNames := rfl
          shapePropertyPaths := rfl
          objectives := rfl
          constraints := rfl
          energy := rfl
          evaluated := ⟨_, evaluated, valued⟩
          penaltyWeight := rfl
          phase := rfl }

theorem succeeds_noteInitialEnergy {energy : Energy σ Float} {config : Config}
    {values : List Float} {next : Unit → Run σ α} {world : σ}
    (rest : ∀ after, (next ()).Succeeds after) :
    (noteInitialEnergy energy config values >>= next).Succeeds world := by
  unfold noteInitialEnergy
  rw [bind_assoc]
  apply Run.Succeeds.attempt
  intro outcome after
  cases outcome with
  | ok value => exact .remark (.note _) (rest after)
  | error error => exact .remark (.note _) (rest after)

/-- An assembly that passes all checks succeeds. -/
theorem succeeds_assemble (detail : Option Level) {store : Store Float}
    {catalog : Catalog} {registries : Registries σ Float} {config : Config}
    {world : σ} {sampled : Sampled} {generator : Generator}
    {shapes : List (Shape Float)} {evaluated : Memory σ Float}
    {values : List Float}
    (validConfig : config.validate = .ok ())
    (validCatalog : catalog.validate = .ok ())
    (knownKinds : checkKinds store catalog = .ok ())
    (someVarying : store.varyingPaths catalog ≠ [])
    (drawn : (sample store catalog config
      (store.varyingPaths catalog)).run ⟨config.seed⟩ = (sampled, generator))
    (knownCalls : (callsOf .objective sampled.store catalog ++
      callsOf .constraint sampled.store catalog).forM
        (checkCall registries) = .ok ())
    (shaped : Evaluation.forget ((Evaluator.capped registries.computations
      config.recursionLimit).evalShapes .empty sampled.store.shapePaths
        ⟨sampled.store, world, []⟩) = (.ok shapes, evaluated))
    (valued : (store.varyingPaths catalog).mapM
      (initialValue evaluated.store) = .ok values) :
    (assemble detail store catalog registries config).Succeeds world := by
  have notEmpty : ¬ (store.varyingPaths catalog).isEmpty = true := by
    simpa using someVarying
  unfold assemble
  apply Run.Succeeds.remark (.ofExcept validConfig)
  apply Run.Succeeds.remark (.ofExcept validCatalog)
  apply Run.Succeeds.remark (.ofExcept knownKinds)
  apply Run.Succeeds.remark (.note _)
  simp only [drawn, if_neg notEmpty]
  apply Run.Succeeds.remark (.forM .note)
  apply Run.Succeeds.remark (.forM fun _ => .note _)
  apply Run.Succeeds.remark (.ofExcept knownCalls)
  apply Run.Succeeds.remark (Energy.remarks_compile _ _ _ _ _ _)
  apply Run.Succeeds.remark (Energy.remarks_evaluator _)
  apply Run.Succeeds.pass
  simp only [Energy.ownEvaluator, shaped]
  intro after
  apply Run.Succeeds.remark (.ofExcept rfl)
  apply Run.Succeeds.remark (.ofExcept valued)
  split
  · apply succeeds_noteInitialEnergy
    intro last
    exact .pure _
  · exact .pure _

end Problem

end DiagramEnergy
