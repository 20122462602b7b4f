import DiagramEnergy.Proofs.Evaluation.Loop
import DiagramEnergy.Run

/-!
# Outcomes of runs

The outcome of an action often does not depend on what a run has noted or on
the state of its computations.  The rules here put such outcomes together; they
tell actions that only leave notices from those that evaluate something.
-/

namespace DiagramEnergy

variable {σ N α β : Type}

namespace Run

/-- The result or error of an action, without the run that it leaves. -/
def outcome (action : Run σ α) (run : RunState σ) : Except Error α :=
  match action run with
  | .ok result _ => .ok result
  | .error error _ => .error error

theorem outcome_bind (action : Run σ α) (next : α → Run σ β)
    (run : RunState σ) :
    (action >>= next).outcome run =
      match action run with
      | .ok result later => (next result).outcome later
      | .error error _ => .error error := by
  simp only [outcome, Bind.bind, EStateM.bind]
  cases action run <;> rfl

@[simp] theorem outcome_pure (result : α) (run : RunState σ) :
    (Pure.pure result : Run σ α).outcome run = .ok result := rfl

theorem outcome_map (convert : α → β) (action : Run σ α) (run : RunState σ) :
    (convert <$> action).outcome run = convert <$> action.outcome run := by
  simp only [outcome, Functor.map, EStateM.map]
  cases action run <;> rfl

theorem outcome_ofExcept_bind (checked : Except Error α) (next : α → Run σ β)
    (run : RunState σ) :
    (Run.ofExcept checked >>= next).outcome run =
      checked >>= fun result => (next result).outcome run := by
  cases checked <;> rfl

/-- What follows an action may depend on its result only. -/
theorem outcome_bind_of_const {action : Run σ α} {next : α → Run σ β}
    {rest : α → Except Error β}
    (const : ∀ result later, (next result).outcome later = rest result)
    (run : RunState σ) :
    (action >>= next).outcome run = action.outcome run >>= rest := by
  rw [outcome_bind, outcome]
  cases action run with
  | ok result later => exact const result later
  | error error later => rfl

theorem ofExcept_ok {outcome : Except Error α} {run later : RunState σ}
    {result : α} (ran : Run.ofExcept outcome run = .ok result later) :
    outcome = .ok result ∧ later = run := by
  cases outcome with
  | error error => cases ran
  | ok found =>
      cases ran
      exact ⟨rfl, rfl⟩

theorem outcome_eq_ok {action : Run σ α} {run later : RunState σ} {result : α}
    (ran : action run = .ok result later) :
    action.outcome run = .ok result := by
  rw [outcome, ran]

/-- The result and the store of a pass. -/
theorem pass_run (store : Store N) (action : Evaluation σ N α)
    (run : RunState σ) :
    ∃ later, Run.pass store action run = .ok
      ((Evaluation.forget (action ⟨store, run.world, []⟩)).1,
        (Evaluation.forget (action ⟨store, run.world, []⟩)).2.store) later := by
  simp only [Run.pass]
  cases action ⟨store, run.world, []⟩ with
  | ok result final => exact ⟨_, rfl⟩
  | error error final => exact ⟨_, rfl⟩

theorem outcome_evaluate (store : Store N) (action : Evaluation σ N α)
    (run : RunState σ) :
    (Run.evaluate store action).outcome run =
      (Evaluation.forget (action ⟨store, run.world, []⟩)).1 := by
  obtain ⟨later, ran⟩ := pass_run store action run
  rw [Run.evaluate, outcome_bind, ran]
  cases (Evaluation.forget (action ⟨store, run.world, []⟩)).1 <;> rfl

/-- The result and the store that a pass has come back with. -/
theorem pass_ok {store : Store N} {action : Evaluation σ N α}
    {run later : RunState σ} {passed : Except Error α × Store N}
    (ran : Run.pass store action run = .ok passed later) :
    passed = ((Evaluation.forget (action ⟨store, run.world, []⟩)).1,
      (Evaluation.forget (action ⟨store, run.world, []⟩)).2.store) := by
  obtain ⟨_, same⟩ := pass_run store action run
  have both := ran.symm.trans same
  cases both
  rfl

/-- An action that succeeds and leaves nothing but notices. -/
def Remarks (action : Run σ α) (result : α) : Prop :=
  ∀ run, ∃ later, action run = .ok result later ∧ later.world = run.world

namespace Remarks

theorem pure (result : α) : Remarks (Pure.pure result : Run σ α) result :=
  fun run => ⟨run, rfl, rfl⟩

theorem ofExcept {outcome : Except Error α} {result : α}
    (same : outcome = .ok result) :
    Remarks (Run.ofExcept outcome : Run σ α) result := by
  rw [same]
  exact pure result

theorem note (notice : Notice) : Remarks (Run.note notice : Run σ Unit) () :=
  fun run => ⟨⟨run.world, notice :: run.notices⟩, rfl, rfl⟩

theorem bind {action : Run σ α} {next : α → Run σ β} {first : α} {result : β}
    (remarks : Remarks action first) (rest : Remarks (next first) result) :
    Remarks (action >>= next) result := by
  intro run
  obtain ⟨between, ran, same⟩ := remarks run
  obtain ⟨later, ended, last⟩ := rest between
  refine ⟨later, ?_, last.trans same⟩
  simp only [Bind.bind, EStateM.bind, ran]
  exact ended

theorem forM {items : List α} {remark : α → Run σ Unit}
    (each : ∀ item, Remarks (remark item) ()) :
    Remarks (items.forM remark) () := by
  induction items with
  | nil => exact pure ()
  | cons item items induction => exact (each item).bind induction

theorem evaluator (computations : Computations σ N) (limit : Nat) :
    Remarks (Run.evaluator computations limit : Run σ (Evaluator σ N))
      (.capped computations limit) := by
  unfold Run.evaluator
  split
  · exact (note _).bind (pure _)
  · exact pure _

theorem outcome_bind {action : Run σ α} {next : α → Run σ β} {result : α}
    (remarks : Remarks action result) (run : RunState σ) :
    ∃ later, later.world = run.world ∧
      (action >>= next).outcome run = (next result).outcome later := by
  obtain ⟨later, ran, same⟩ := remarks run
  refine ⟨later, same, ?_⟩
  rw [Run.outcome_bind, ran]

theorem result_eq {action : Run σ α} {result found : α}
    {run later : RunState σ} (remarks : Remarks action result)
    (ran : action run = .ok found later) : found = result := by
  obtain ⟨_, same, -⟩ := remarks run
  have both := ran.symm.trans same
  cases both
  rfl

end Remarks

/-- An action that succeeds in a world, whatever has been noted before. -/
def Succeeds (action : Run σ α) (world : σ) : Prop :=
  ∀ run, run.world = world → ∃ result later, action run = .ok result later

namespace Succeeds

variable {world : σ}

theorem pure (result : α) : Succeeds (Pure.pure result : Run σ α) world :=
  fun run _ => ⟨result, run, rfl⟩

theorem remark {action : Run σ α} {next : α → Run σ β} {result : α}
    (remarks : action.Remarks result) (rest : (next result).Succeeds world) :
    (action >>= next).Succeeds world := by
  intro run same
  obtain ⟨between, ran, kept⟩ := remarks run
  obtain ⟨found, later, ended⟩ := rest between (kept.trans same)
  refine ⟨found, later, ?_⟩
  simp only [Bind.bind, EStateM.bind, ran]
  exact ended

theorem pass {store : Store N} {action : Evaluation σ N α}
    {next : Except Error α × Store N → Run σ β}
    (rest : let ended := Evaluation.forget (action ⟨store, world, []⟩)
      ∀ after, (next (ended.1, ended.2.store)).Succeeds after) :
    (Run.pass store action >>= next).Succeeds world := by
  intro run same
  obtain ⟨between, ran⟩ := pass_run store action run
  rw [same] at ran
  obtain ⟨found, later, ended⟩ := rest between.world between rfl
  refine ⟨found, later, ?_⟩
  simp only [Bind.bind, EStateM.bind, ran]
  exact ended

theorem attempt {action : Run σ α} {next : Except Error α → Run σ β}
    (rest : ∀ outcome after, (next outcome).Succeeds after) :
    (Run.attempt action >>= next).Succeeds world := by
  intro run _
  simp only [Bind.bind, EStateM.bind, Run.attempt]
  cases action run with
  | ok result between => exact rest (.ok result) between.world between rfl
  | error error between =>
      exact rest (.error error) between.world between rfl

end Succeeds

/-- An action that has one outcome in all runs. -/
def Gives (action : Run σ α) (outcome : Except Error α) : Prop :=
  ∀ run, action.outcome run = outcome

namespace Gives

theorem of_remarks {action : Run σ α} {result : α}
    (remarks : action.Remarks result) : action.Gives (.ok result) := by
  intro run
  obtain ⟨later, ran, -⟩ := remarks run
  exact outcome_eq_ok ran

theorem ofExcept (outcome : Except Error α) :
    Gives (Run.ofExcept outcome : Run σ α) outcome := by
  intro run
  cases outcome <;> rfl

theorem bind {action : Run σ α} {next : α → Run σ β}
    {outcome : Except Error α} {answer : α → Except Error β}
    (first : action.Gives outcome)
    (later : ∀ result, (next result).Gives (answer result)) :
    (action >>= next).Gives (outcome >>= answer) := by
  intro run
  rw [outcome_bind, ← first run, Run.outcome]
  cases action run with
  | ok result after => exact later result after
  | error error after => rfl

theorem bind_ok {action : Run σ α} {next : α → Run σ β} {result : α}
    {outcome : Except Error β} (first : action.Gives (.ok result))
    (later : (next result).Gives outcome) :
    (action >>= next).Gives outcome := by
  intro run
  have same := first run
  rw [Run.outcome] at same
  rw [outcome_bind]
  cases ran : action run with
  | ok found after =>
      rw [ran] at same
      cases same
      exact later after
  | error error after =>
      rw [ran] at same
      cases same

theorem evaluate {store : Store N} {action : Evaluation σ N α}
    {outcome : Except Error α}
    (every : ∀ world,
      (Evaluation.forget (action ⟨store, world, []⟩)).1 = outcome) :
    Gives (Run.evaluate store action) outcome := by
  intro run
  rw [outcome_evaluate]
  exact every run.world

end Gives

end Run

end DiagramEnergy
