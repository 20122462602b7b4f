import DiagramEnergy.Proofs.Evaluation.Assembly
import DiagramEnergy.Proofs.Evaluation.Shapes

/-!
# The parts of evaluated shapes

Whatever the computations do, a shape that has been evaluated has the kind and
the properties that its slot lists, and its name.  None of these properties was
still marked as free, since a marker that no override hides cannot be evaluated.
-/

namespace DiagramEnergy

variable {σ N : Type}

namespace Shape

variable {path : Path} {kind property : String}
  {values : List (String × Value N)}

@[simp] theorem get?_name_assembled :
    (assembled path kind values).get? "name" = some (.str path.owner.text) := by
  simp only [assembled, get?, Table.get?_insert_self]

theorem has_assembled_iff :
    (assembled path kind values).has property = true ↔
      property = "name" ∨ property ∈ values.map Prod.fst := by
  by_cases reserved : property = "name"
  · simp [has, Table.contains, assembled, reserved]
  · simp only [has, Table.contains, assembled, Table.get?_insert,
      reserved, false_or, Option.isSome_iff_exists]
    constructor
    · rintro ⟨value, bound⟩
      exact List.mem_map_of_mem (f := Prod.fst) (Table.mem_of_get?_ofList bound)
    · exact Table.isSome_get?_ofList

end Shape

/-- A path to a marker of a free slot that no override hides. -/
def Store.AwaitsChoice (store : Store N) (overrides : Overrides N)
    (path : Path) : Prop :=
  store.demand overrides path = .ok (.evaluate .vary)

/-- A shape that has all parts that the slot at a path lists. -/
structure Store.Provides (store : Store N) (overrides : Overrides N)
    (path : Path) (kind : String) (names : List String)
    (shape : Shape N) : Prop where
  assembled : ∃ values, shape = .assembled path kind values ∧
    values.map Prod.fst = names
  chosen : ∀ name ∈ names, ¬ store.AwaitsChoice overrides
    (.property path.object path.fieldName name)

/-- Filling never removes a marker. -/
theorem Store.AwaitsChoice.filled {start later : Store N}
    {overrides : Overrides N} {path : Path}
    (awaits : start.AwaitsChoice overrides path)
    (filled : start.Filled overrides (start.fillable fun _ => True) later) :
    later.AwaitsChoice overrides path := by
  rcases filled.demand path with same | ⟨_, _, _, ⟨_, unmarked⟩, _⟩
  · exact same.trans awaits
  · exact absurd (Store.demand_evaluate_iff.1 awaits).2 unmarked

theorem map_fst_of_zip {α β : Type} {names : List α} {results : List (α × β)}
    (sameLength : results.length = names.length)
    (each : ∀ pair ∈ names.zip results, pair.2.1 = pair.1) :
    results.map Prod.fst = names := by
  calc
    results.map Prod.fst = ((names.zip results).map Prod.snd).map Prod.fst := by
      rw [List.map_snd_zip (Nat.le_of_eq sameLength)]
    _ = (names.zip results).map Prod.fst := by
      rw [List.map_map]
      exact List.map_congr_left each
    _ = names := List.map_fst_zip (Nat.le_of_eq sameLength.symm)

namespace Evaluator

variable [Scalar N] {evaluator : Evaluator σ N} {overrides : Overrides N}
  {start : Store N}

variable (evaluator) in
theorem descendPath_of_awaitsChoice (budget : Nat) {path : Path}
    {memory : Memory σ N} (awaits : memory.store.AwaitsChoice overrides path) :
    ∃ error, ((evaluator.descendPath overrides true budget path).run
      memory).1 = .error error := by
  cases budget with
  | zero => exact ⟨_, rfl⟩
  | succ budget =>
      obtain ⟨error, ran⟩ :=
        run_descendExpr_vary evaluator overrides true budget memory
      refine ⟨error, ?_⟩
      rw [run_descendPath, show memory.store.demand overrides path =
        .ok (.evaluate .vary) from awaits]
      simp only [meet]
      rw [Descent.run_bind, ran]

/-- A property that is evaluated keeps its name and is no marker. -/
theorem ensures_descendProperty (budget : Nat) (path : Path) (name : String) :
    Ensures (start.Filled overrides (start.fillable fun _ => True))
      (evaluator.descendProperty overrides true budget path name : Descent σ N _)
      fun outcome later =>
        start.Filled overrides (start.fillable fun _ => True) later ∧
        ∀ result, outcome = .ok result → result.1 = name ∧
          ¬ start.AwaitsChoice overrides
            (.property path.object path.fieldName name) := by
  intro memory filled
  have kept := (evaluator.keeps_descend true (start.closed_all overrides)
    budget).2 (.property path.object path.fieldName name) trivial
  refine ⟨((kept.plain _).bind fun value => Keeps.pure (name, value))
    memory filled, ?_⟩
  intro result succeeded
  simp only [descendProperty] at succeeded
  rw [Descent.run_map, Descent.run_plain] at succeeded
  cases found : ((evaluator.descendPath overrides true budget
      (.property path.object path.fieldName name)).run memory).1 with
  | error error =>
      rw [found] at succeeded
      cases succeeded
  | ok evaluated =>
      rw [found] at succeeded
      constructor
      · cases evaluated with
        | plain value =>
            cases succeeded
            rfl
        | shaped shape => cases succeeded
      · intro awaits
        obtain ⟨error, failed⟩ := evaluator.descendPath_of_awaitsChoice
          budget (awaits.filled filled)
        rw [found] at failed
        cases failed

theorem ensures_descendPath (budget : Nat) {path : Path} {kind : String}
    {names : List String}
    (asked : start.demand overrides path = .ok (.assemble kind names)) :
    Ensures (start.Filled overrides (start.fillable fun _ => True))
      (evaluator.descendPath overrides true budget path : Descent σ N _)
      fun outcome later =>
        start.Filled overrides (start.fillable fun _ => True) later ∧
        ∀ shape, outcome = .ok (.shaped shape) →
          start.Provides overrides path kind names shape := by
  cases budget with
  | zero =>
      apply Ensures.throw
      intro store filled
      refine ⟨filled, ?_⟩
      intro shape succeeded
      cases succeeded
  | succ budget =>
      intro memory filled
      have same : memory.store.demand overrides path =
          .ok (.assemble kind names) := by
        rcases filled.demand path with same | ⟨_, _, other, -, -⟩
        · exact same.trans asked
        · rw [asked] at other
          cases other
      rw [run_descendPath, same]
      obtain ⟨reached, parts⟩ := Ensures.mapM names
        (fun name _ => ensures_descendProperty budget path name) memory filled
      simp only [meet]
      rw [Descent.run_map]
      refine ⟨reached, ?_⟩
      intro shape succeeded
      cases found : ((names.mapM (evaluator.descendProperty overrides true
          budget path)).run memory).1 with
      | error error =>
          rw [found] at succeeded
          cases succeeded
      | ok values =>
          rw [found] at succeeded
          cases succeeded
          obtain ⟨sameLength, each⟩ := parts values found
          refine ⟨⟨values, rfl, ?_⟩, ?_⟩
          · exact map_fst_of_zip sameLength fun pair member =>
              (each pair member).1
          · intro name member
            obtain ⟨value, paired⟩ := exists_mem_zip sameLength member
            exact (each (name, value) paired).2

/-- What a successful evaluation of shapes has assembled at each path. -/
theorem provides_of_evalShapes {paths : List Path} {pass : Pass σ N}
    {shapes : List (Shape N)}
    (succeeded : (Evaluation.forget
      (evaluator.evalShapes overrides paths pass)).1 = .ok shapes) :
    shapes.length = paths.length ∧
    ∀ path shape, (path, shape) ∈ paths.zip shapes → ∀ kind names,
      pass.store.demand overrides path = .ok (.assemble kind names) →
      pass.store.Provides overrides path kind names shape := by
  rw [forget_evalShapes] at succeeded
  have each : ∀ path ∈ paths,
      Ensures (pass.store.Filled overrides
          (pass.store.fillable fun _ => True))
        (evaluator.descendShape overrides path) fun outcome later =>
          pass.store.Filled overrides
            (pass.store.fillable fun _ => True) later ∧
          ∀ shape, outcome = .ok shape → ∀ kind names,
            pass.store.demand overrides path = .ok (.assemble kind names) →
            pass.store.Provides overrides path kind names shape := by
    intro path _ memory filled
    refine ⟨keeps_descendShape pass.store path memory filled, ?_⟩
    intro shape succeeded kind names asked
    obtain ⟨-, provided⟩ :=
      ensures_descendPath evaluator.limit asked memory filled
    simp only [descendShape] at succeeded
    rw [Descent.run_bind] at succeeded
    cases ran : (evaluator.descendPath overrides true evaluator.limit
        path).run memory with
    | mk outcome later =>
        rw [ran] at succeeded provided
        cases outcome with
        | error error => cases succeeded
        | ok result =>
            cases result with
            | plain value => cases succeeded
            | shaped found =>
                cases succeeded
                exact provided shape rfl
  obtain ⟨sameLength, provides⟩ :=
    (Ensures.mapM paths each pass.memory (.refl _)).2 shapes succeeded
  exact ⟨sameLength, fun path shape member => provides (path, shape) member⟩

end Evaluator

end DiagramEnergy
