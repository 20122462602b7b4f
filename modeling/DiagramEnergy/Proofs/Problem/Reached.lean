import DiagramEnergy.Proofs.Evaluation.Assembly
import DiagramEnergy.Proofs.Overrides
import DiagramEnergy.Proofs.Problem.Assembled
import DiagramEnergy.Proofs.Problem.Initial

/-!
# Problems in the course of an optimization

A problem that has been assembled, and has moved any number of times since,
shows the shapes at its varying values.  The first shapes were evaluated without
overrides; the sampled store holds the same numbers, so this makes no difference.
-/

namespace DiagramEnergy

variable {σ α β : Type}

theorem Except.ok_of_mapM {check : α → Except Error β} {items : List α}
    {results : List β} (passed : items.mapM check = .ok results) :
    items.length = results.length ∧
      ∀ pair ∈ items.zip results, check pair.1 = .ok pair.2 := by
  induction items generalizing results with
  | nil =>
      cases passed
      exact ⟨rfl, by simp⟩
  | cons item items induction =>
      rw [List.mapM_cons] at passed
      cases first : check item with
      | error error =>
          rw [first] at passed
          cases passed
      | ok result =>
          cases rest : items.mapM check with
          | error error =>
              rw [first, rest] at passed
              cases passed
          | ok others =>
              rw [first, rest] at passed
              cases passed
              obtain ⟨sameLength, each⟩ := induction rest
              refine ⟨congrArg (· + 1) sameLength, ?_⟩
              intro pair member
              rw [List.zip_cons_cons] at member
              rcases List.mem_cons.1 member with rfl | later
              · exact first
              · exact each pair later

theorem mem_zip_of_getElem? {items : List α} {others : List β} {index : Nat}
    {item : α} {other : β} (first : items[index]? = some item)
    (second : others[index]? = some other) :
    (item, other) ∈ items.zip others :=
  List.mem_of_getElem? (List.getElem?_zip_eq_some.2 ⟨first, second⟩)

namespace Problem

/-! ## Shapes at varying values -/

/-- The shapes that some pass has evaluated at some varying values. -/
def Shows (problem : Problem σ) (values : List Float)
    (shapes : List (Shape Float)) : Prop :=
  ∃ overrides world,
    Overrides.ofParts problem.varyingPaths values = .ok overrides ∧
    (Evaluation.forget (problem.energy.ownEvaluator.evalShapes overrides
      problem.shapeNames ⟨problem.store, world, []⟩)).1 = .ok shapes

variable {problem : Problem σ} {values : List Float}
  {shapes : List (Shape Float)}

theorem shows_of_shapesAt {run later : RunState σ}
    (ran : problem.shapesAt values run = .ok shapes later) :
    problem.Shows values shapes := by
  unfold shapesAt at ran
  obtain ⟨overrides, _, first, ran⟩ := of_bind_ok ran
  obtain ⟨paired, -⟩ := Run.ofExcept_ok first
  obtain ⟨evaluator, between, made, ran⟩ := of_bind_ok ran
  have ownEvaluator := (Energy.remarks_evaluator _).result_eq made
  subst ownEvaluator
  have evaluated := Run.outcome_eq_ok ran
  rw [Run.outcome_evaluate] at evaluated
  exact ⟨overrides, between.world, paired, evaluated⟩

theorem shows_of_outcome {run : RunState σ}
    (shown : (problem.shapesAt values).outcome run = .ok shapes) :
    problem.Shows values shapes := by
  rw [Run.outcome] at shown
  cases ran : problem.shapesAt values run with
  | error error later =>
      rw [ran] at shown
      cases shown
  | ok found later =>
      rw [ran] at shown
      cases shown
      exact shows_of_shapesAt ran

/-- Shapes that are evaluated once are the outcome in every run. -/
theorem Shows.gives
    (pureComputations : problem.energy.registries.computations.ArePure)
    (shows : problem.Shows values shapes) :
    (problem.shapesAt values).Gives (.ok shapes) := by
  obtain ⟨overrides, world, paired, evaluated⟩ := shows
  apply (Run.Gives.of_remarks (.ofExcept paired)).bind_ok
  apply (Run.Gives.of_remarks (Energy.remarks_evaluator _)).bind_ok
  apply Run.Gives.evaluate
  intro other
  have sameStore : (⟨problem.store, other, []⟩ : Pass σ Float).store =
      (⟨problem.store, world, []⟩ : Pass σ Float).store := rfl
  exact Evaluator.evalShapes_of_evalShapes pureComputations sameStore evaluated

/-! ## Moving -/

/-- A move either ends at other values, with the shapes that it has evaluated
there, or fails and leaves the problem where it is. -/
theorem setVarying_cases (values : List Float) (stage : Stage σ) :
    (∃ shapes run, stage.problem.shapesAt values stage.run = .ok shapes run ∧
      setVarying values stage =
        .ok () ⟨{ stage.problem with shapes, varyingState := values }, run⟩) ∨
    ∃ error run, setVarying values stage = .error error ⟨stage.problem, run⟩ := by
  simp only [setVarying, Bind.bind, EStateM.bind, Move.look]
  cases stage.problem.shapesAt values stage.run with
  | ok shapes run => exact .inl ⟨shapes, run, rfl, rfl⟩
  | error error run => exact .inr ⟨error, run, rfl⟩

variable {stage later : Stage σ}

theorem of_setVarying_ok (moved : setVarying values stage = .ok () later) :
    ∃ shapes, stage.problem.Shows values shapes ∧
      later.problem = { stage.problem with shapes, varyingState := values } := by
  rcases setVarying_cases values stage with
    ⟨shapes, run, shown, ended⟩ | ⟨error, run, ended⟩
  · rw [ended] at moved
    cases moved
    exact ⟨shapes, shows_of_shapesAt shown, rfl⟩
  · rw [ended] at moved
    cases moved

theorem problem_of_setVarying_error {error : Error}
    (failed : setVarying values stage = .error error later) :
    later.problem = stage.problem := by
  rcases setVarying_cases values stage with
    ⟨shapes, run, shown, ended⟩ | ⟨found, run, ended⟩
  · rw [ended] at failed
    cases failed
  · rw [ended] at failed
    cases failed
    rfl

/-- The problems that come of an assembly and any number of moves, some of which
may have failed. -/
inductive Reached (registries : Registries σ Float) : Problem σ → Prop where
  | assembled {detail : Option Level} {store : Store Float} {catalog : Catalog}
      {config : Config} {run later : RunState σ} {problem : Problem σ} :
      assemble detail store catalog registries config run =
        .ok problem later → Reached registries problem
  | moved {values : List Float} {stage later : Stage σ} :
      Reached registries stage.problem →
      setVarying values stage = .ok () later →
      Reached registries later.problem
  | failed {values : List Float} {error : Error} {stage later : Stage σ} :
      Reached registries stage.problem →
      setVarying values stage = .error error later →
      Reached registries later.problem

/-! ## What moves preserve -/

/-- What an assembly establishes and every move preserves. -/
structure Settled (registries : Registries σ Float)
    (problem : Problem σ) : Prop where
  distinct : problem.varyingPaths.Nodup
  someVarying : problem.varyingPaths ≠ []
  shapeNames : problem.shapeNames = problem.store.shapePaths
  ownRegistries : problem.energy.registries = registries
  ordinary : ∀ path ∈ problem.varyingPaths,
    path.propertyName? ≠ some reservedProperty
  sampled : ∀ path ∈ problem.varyingPaths, ∃ number,
    problem.store.content? path = some (.concrete (.float number))
  shown : problem.Shows problem.varyingState problem.shapes

section Base

variable {store : Store Float} {catalog : Catalog}
  {registries : Registries σ Float} {config : Config} {path : Path}

theorem Assembled.content?_of_ordinary
    (assembled : Assembled store catalog registries config problem)
    (varying : path ∈ problem.varyingPaths)
    (ordinary : path.propertyName? ≠ some reservedProperty) :
    ∃ number,
      problem.store.content? path = some (.concrete (.float number)) := by
  rw [assembled.varyingPaths] at varying
  obtain ⟨notices, drawn⟩ := assembled.sampled
  have filled := content?_sample_of_ordinary assembled.validCatalog config
    ⟨config.seed⟩ (Store.mem_varyingPaths_iff.1 varying) ordinary
  rw [drawn] at filled
  exact filled

theorem Assembled.empty_of_reserved
    (assembled : Assembled store catalog registries config problem)
    (varying : path ∈ problem.varyingPaths)
    (reserved : path.propertyName? = some reservedProperty) :
    problem.store.content? path = none ∨
      problem.store.content? path = some (.symbolic .vary) := by
  rw [assembled.varyingPaths] at varying
  obtain ⟨notices, drawn⟩ := assembled.sampled
  obtain ⟨same, empty⟩ := content?_sample_of_reserved config ⟨config.seed⟩
    (Store.mem_varyingPaths_iff.1 varying) reserved
  rw [← same, drawn] at empty
  exact empty

/-- The initial values are those that the sampled store holds. -/
theorem Assembled.content?_of_mem_zip
    (assembled : Assembled store catalog registries config problem)
    {number : Float}
    (member : (path, number) ∈
      problem.varyingPaths.zip problem.varyingState) :
    path.propertyName? ≠ some reservedProperty ∧
      problem.store.content? path = some (.concrete (.float number)) := by
  obtain ⟨world, -, valued⟩ := assembled.evaluated
  have read := (Except.ok_of_mapM valued).2 (path, number) member
  have varying := (List.of_mem_zip member).1
  have filled : problem.store.Filled .empty
      (problem.store.fillable fun _ => True)
      (Evaluation.forget (problem.energy.ownEvaluator.evalShapes .empty
        problem.shapeNames ⟨problem.store, world, []⟩)).2.store :=
    Evaluator.filled_evalShapes problem.shapeNames ⟨problem.store, world, []⟩
  have ordinary : path.propertyName? ≠ some reservedProperty := by
    intro reserved
    have empty := assembled.empty_of_reserved varying reserved
    rw [initialValue_of_empty (empty_of_filled filled empty)] at read
    cases read
  refine ⟨ordinary, ?_⟩
  obtain ⟨found, content⟩ := assembled.content?_of_ordinary varying ordinary
  rw [initialValue_of_float (filled.content?_concrete content)] at read
  cases read
  exact content

/-- The first shapes are also those at the initial values. -/
theorem Assembled.shows
    (assembled : Assembled store catalog registries config problem) :
    problem.Shows problem.varyingState problem.shapes := by
  obtain ⟨world, shaped, valued⟩ := assembled.evaluated
  have paired := Overrides.ofParts_eq_ok_iff.2
    ⟨(Except.ok_of_mapM valued).1, rfl⟩
  refine ⟨_, world, paired, ?_⟩
  rw [Evaluator.forget_evalShapes_of_restates]
  · exact shaped
  · intro path number overridden
    have member := Overrides.mem_zip_of_get? paired overridden
    exact (assembled.content?_of_mem_zip member).2

theorem Assembled.settled
    (assembled : Assembled store catalog registries config problem) :
    problem.Settled registries := by
  obtain ⟨world, -, valued⟩ := assembled.evaluated
  have sameLength := (Except.ok_of_mapM valued).1
  have listed : ∀ path ∈ problem.varyingPaths,
      path.propertyName? ≠ some reservedProperty ∧ ∃ number,
        problem.store.content? path = some (.concrete (.float number)) := by
    intro path varying
    rw [← List.map_fst_zip (Nat.le_of_eq sameLength)] at varying
    obtain ⟨⟨_, number⟩, member, rfl⟩ := List.mem_map.1 varying
    obtain ⟨ordinary, content⟩ := assembled.content?_of_mem_zip member
    exact ⟨ordinary, number, content⟩
  exact {
    distinct := by
      rw [assembled.varyingPaths]
      exact store.varyingPaths_nodup catalog
    someVarying := assembled.someVarying
    shapeNames := assembled.shapeNames
    ownRegistries := by rw [assembled.energy]
    ordinary := fun path varying => (listed path varying).1
    sampled := fun path varying => (listed path varying).2
    shown := assembled.shows }

end Base

variable {registries : Registries σ Float}

theorem Settled.moved (settled : stage.problem.Settled registries)
    (ran : setVarying values stage = .ok () later) :
    later.problem.Settled registries := by
  obtain ⟨shapes, shows, same⟩ := of_setVarying_ok ran
  rw [same]
  exact { settled with shown := shows }

theorem Reached.settled (reached : Reached registries problem) :
    problem.Settled registries := by
  induction reached with
  | assembled ran => exact (assembled_of_assemble ran).settled
  | moved _ ran induction => exact induction.moved ran
  | failed _ ran induction =>
      rw [problem_of_setVarying_error ran]
      exact induction

/-! ## What settled problems show -/

section Shown

open ByName

theorem Shows.evaluates
    (pureComputations : problem.energy.registries.computations.ArePure)
    (shows : problem.Shows values shapes) :
    ∃ overrides,
      Overrides.ofParts problem.varyingPaths values = .ok overrides ∧
      shapes.length = problem.shapeNames.length ∧
      ∀ path shape, (path, shape) ∈ problem.shapeNames.zip shapes →
        Evaluates problem.energy.registries.computations problem.store overrides
          (.reference path) (.ok (.shaped shape)) := by
  obtain ⟨overrides, world, paired, evaluated⟩ := shows
  obtain ⟨sameLength, evaluates⟩ :=
    Evaluator.evaluates_of_evalShapes pureComputations evaluated
  exact ⟨overrides, paired, sameLength,
    fun path shape member => evaluates (path, shape) member⟩

/-- No varying path leads to a shape, so shape paths ask for an assembly. -/
theorem Settled.demand_of_mem_shapeNames (settled : problem.Settled registries)
    {overrides : Overrides Float}
    (paired : Overrides.ofParts problem.varyingPaths values = .ok overrides)
    {path : Path} (listed : path ∈ problem.shapeNames) :
    ∃ object name kind properties, path = .field object name ∧
      problem.store.slot? object name = some (.shape kind properties) ∧
      problem.store.demand overrides path =
        .ok (.assemble kind properties.keys) := by
  rw [settled.shapeNames] at listed
  obtain ⟨object, name, kind, properties, found, rfl⟩ :=
    Store.mem_shapePaths_iff.1 listed
  refine ⟨object, name, kind, properties, rfl, found, ?_⟩
  apply Store.demand_assemble_iff.2
  refine ⟨?_, rfl, properties, found, rfl⟩
  cases overridden : overrides.get? (.field object name) with
  | none => rfl
  | some number =>
      have member := Overrides.mem_zip_of_get? paired overridden
      obtain ⟨_, content⟩ := settled.sampled _ (List.of_mem_zip member).1
      rw [Store.content?_eq_slot?] at content
      simp [Path.object, Path.fieldName, found, Slot.contentAt] at content

theorem Settled.name_of_mem_zip (settled : problem.Settled registries)
    (pureComputations : registries.computations.ArePure) {path : Path}
    {shape : Shape Float}
    (member : (path, shape) ∈ problem.shapeNames.zip problem.shapes) :
    shape.name = path.text := by
  rw [← settled.ownRegistries] at pureComputations
  obtain ⟨overrides, paired, -, evaluates⟩ :=
    settled.shown.evaluates pureComputations
  obtain ⟨object, name, kind, properties, rfl, -, asked⟩ :=
    settled.demand_of_mem_shapeNames paired (List.of_mem_zip member).1
  obtain ⟨values, rfl, -⟩ :=
    (evaluates _ _ member).assembled rfl asked rfl
  exact Shape.name_assembled _ kind values

/-- A varying property is a property of a shape in the sampled store. -/
theorem Settled.slot?_of_property (settled : problem.Settled registries)
    {object name property : String}
    (varying : .property object name property ∈ problem.varyingPaths) :
    ∃ kind properties,
      problem.store.slot? object name = some (.shape kind properties) ∧
      property ∈ properties.keys := by
  obtain ⟨number, content⟩ := settled.sampled _ varying
  rw [Store.content?_eq_slot?, Option.bind_eq_some_iff] at content
  obtain ⟨slot, found, bound⟩ := content
  cases slot with
  | scalar content => cases bound
  | shape kind properties =>
      refine ⟨kind, properties, found, Table.mem_keys_iff.2 ?_⟩
      exact Option.isSome_iff_exists.2 ⟨_, bound⟩

/-- A varying property shows its value in the shape that it belongs to. -/
theorem Settled.get?_of_mem_zip
    (settled : problem.Settled registries)
    (pureComputations : registries.computations.ArePure)
    {object name property : String} {number : Float}
    (varies : (.property object name property, number) ∈
      problem.varyingPaths.zip problem.varyingState) {shape : Shape Float}
    (member : (.field object name, shape) ∈
      problem.shapeNames.zip problem.shapes) :
    shape.get? property = some (.float number) := by
  rw [← settled.ownRegistries] at pureComputations
  obtain ⟨overrides, paired, -, evaluates⟩ :=
    settled.shown.evaluates pureComputations
  have varying := (List.of_mem_zip varies).1
  obtain ⟨kind, properties, found, listed⟩ :=
    settled.slot?_of_property varying
  obtain ⟨_, _, kind, properties, same, found', asked⟩ :=
    settled.demand_of_mem_shapeNames paired (List.of_mem_zip member).1
  cases same
  rw [found] at found'
  cases found'
  have overridden : overrides.get? (.property object name property) =
      some number := Overrides.get?_of_mem_zip paired settled.distinct varies
  have ordinary : property ≠ "name" := by
    intro reserved
    exact settled.ordinary _ varying (congrArg some reserved)
  obtain ⟨_, world, -⟩ := settled.shown
  have inhabited : Nonempty σ := ⟨world⟩
  exact get?_of_override (evaluates _ _ member) asked listed ordinary overridden

theorem Settled.length_eq (settled : problem.Settled registries) :
    problem.varyingPaths.length = problem.varyingState.length := by
  obtain ⟨overrides, _, paired, -⟩ := settled.shown
  exact (Overrides.ofParts_eq_ok_iff.1 paired).1

theorem Settled.varyingValue? (settled : problem.Settled registries)
    {index : Nat} {path : Path}
    (found : problem.varyingPaths[index]? = some path) :
    problem.varyingValue? path = problem.varyingState[index]? := by
  obtain ⟨inRange, same⟩ := List.getElem?_eq_some_iff.1 found
  have first : problem.varyingPaths.findIdx? (· == path) = some index := by
    rw [List.findIdx?_eq_some_iff_getElem]
    refine ⟨inRange, by simp [same], ?_⟩
    intro earlier before matched
    have equal : problem.varyingPaths[earlier] = problem.varyingPaths[index] :=
      (eq_of_beq matched).trans same.symm
    have sameIndex := (List.getElem_inj settled.distinct).1 equal
    exact Nat.ne_of_lt before sameIndex
  unfold Problem.varyingValue?
  rw [first]
  rfl

end Shown

/-- With pure computations, an assembled problem that has moved any number of
times shows the shapes at its varying values, each under its own name and with
the values of its varying properties, and a move that fails changes nothing. -/
theorem Reached.shows_varyingState
    (pureComputations : registries.computations.ArePure)
    (reached : Reached registries problem) :
    problem.varyingState.length = problem.varyingPaths.length ∧
    1 ≤ problem.varyingPaths.length ∧
    (∀ run, (problem.shapesAt problem.varyingState).outcome run =
      .ok problem.shapes) ∧
    problem.shapes.length = problem.shapeNames.length ∧
    (∀ (index : Nat) path shape, problem.shapeNames[index]? = some path →
      problem.shapes[index]? = some shape → shape.name = path.text) ∧
    (∀ (index : Nat) path number, problem.varyingPaths[index]? = some path →
      problem.varyingState[index]? = some number →
      problem.varyingValue? path = some number ∧
      ∀ object name property, path = .property object name property →
        .field object name ∈ problem.shapeNames ∧
        ∀ (position : Nat) shape,
          problem.shapeNames[position]? = some (.field object name) →
          problem.shapes[position]? = some shape →
          shape.get? property = some (.float number)) ∧
    ∀ values run error later,
      setVarying values ⟨problem, run⟩ = .error error later →
      later.problem = problem := by
  have settled := reached.settled
  have ownPure : problem.energy.registries.computations.ArePure := by
    rw [settled.ownRegistries]
    exact pureComputations
  refine ⟨settled.length_eq.symm, ?_, settled.shown.gives ownPure, ?_, ?_, ?_,
    ?_⟩
  · exact List.length_pos_iff.2 settled.someVarying
  · obtain ⟨_, _, sameLength, -⟩ := settled.shown.evaluates ownPure
    exact sameLength
  · intro index path shape named shown
    exact settled.name_of_mem_zip pureComputations
      (mem_zip_of_getElem? named shown)
  · intro index path number varying valued
    constructor
    · rw [settled.varyingValue? varying]
      exact valued
    · rintro object name property rfl
      have varies := mem_zip_of_getElem? varying valued
      constructor
      · obtain ⟨kind, properties, found, -⟩ :=
          settled.slot?_of_property (List.of_mem_zip varies).1
        rw [settled.shapeNames]
        exact Store.mem_shapePaths_iff.2
          ⟨object, name, kind, properties, found, rfl⟩
      · intro position shape named shown
        exact settled.get?_of_mem_zip pureComputations varies
          (mem_zip_of_getElem? named shown)
  · intro values run error later failed
    exact problem_of_setVarying_error failed

/-- The store with one tag, whose size has been sampled. -/
def sampledTagStore : Store Float :=
  (Store.empty.declare "A").bind "A" "tag"
    (.shape "Tag" (Table.empty.insert "size" (.concrete (.float 1))))

theorem succeeds_assemble_tag :
    (assemble none tagStore (tagCatalog "size") (.empty : Registries Unit Float)
      { recursionLimit := 9 }).Succeeds () := by
  have drawn : (sample tagStore (tagCatalog "size") { recursionLimit := 9 }
      (tagStore.varyingPaths (tagCatalog "size"))).run ⟨16⟩ =
        (⟨sampledTagStore, []⟩, ⟨16⟩) := by
    rfl
  have shaped : Evaluation.forget ((Evaluator.capped .empty 9).evalShapes
      .empty sampledTagStore.shapePaths ⟨sampledTagStore, (), []⟩) =
        (.ok [.assembled (.field "A" "tag") "Tag" [("size", .float 1)]],
          ⟨sampledTagStore, ()⟩) := by
    cbv
  exact succeeds_assemble none rfl rfl rfl (by decide) drawn rfl shaped rfl

/-- The tag shows its one value, and it cannot move to no values at all. -/
theorem shows_varyingState_tag :
    (Registries.empty : Registries Unit Float).computations.ArePure ∧
    ∃ (problem : Problem Unit) (number : Float), Reached .empty problem ∧
      problem.varyingPaths = [.property "A" "tag" "size"] ∧
      problem.varyingState = [number] ∧
      (∀ run, (problem.shapesAt [number]).outcome run = .ok problem.shapes) ∧
      problem.varyingValue? (.property "A" "tag" "size") = some number ∧
      .field "A" "tag" ∈ problem.shapeNames ∧
      ∃ error later, setVarying [] ⟨problem, ⟨(), []⟩⟩ = .error error later ∧
        later.problem = problem := by
  obtain ⟨problem, later, ran⟩ := succeeds_assemble_tag ⟨(), []⟩ rfl
  have reached : Reached .empty problem := .assembled ran
  obtain ⟨sameLength, -, shapes, -, -, values, stays⟩ :=
    reached.shows_varyingState Computations.arePure_empty
  have paths := (assembled_of_assemble ran).varyingPaths
  rw [varyingPaths_tag] at paths
  rw [paths] at sameLength
  obtain ⟨number, only⟩ := List.length_eq_one_iff.1 sameLength
  have first := values 0 (.property "A" "tag" "size") number (by rw [paths]; rfl)
    (by rw [only]; rfl)
  rw [only] at shapes
  refine ⟨Computations.arePure_empty, problem, number, reached, paths, only,
    shapes, first.1, (first.2 "A" "tag" "size" rfl).1, ?_⟩
  cases outcome : setVarying [] ⟨problem, ⟨(), []⟩⟩ with
  | ok result later =>
      obtain ⟨_, ⟨overrides, _, paired, -⟩, -⟩ := of_setVarying_ok outcome
      have tooFew := (Overrides.ofParts_eq_ok_iff.1 paired).1
      rw [paths] at tooFew
      cases tooFew
  | error error later =>
      exact ⟨error, later, rfl, stays [] _ error later outcome⟩

end Problem

end DiagramEnergy
