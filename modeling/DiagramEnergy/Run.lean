import DiagramEnergy.Evaluator.Entry
import DiagramEnergy.Notice

/-!
# Runs

What lasts from one pass to the next beside the results: the state of the
registered computations and the notices made so far.
-/

namespace DiagramEnergy

structure RunState (σ : Type) where
  world : σ
  /-- The latest notice comes first. -/
  notices : List Notice

/-- An action with notices.  What it has noted stays noted when it fails. -/
abbrev Run (σ : Type) := EStateM Error (RunState σ)

/-- The notices of the marks of a pass, the latest one first. -/
def Mark.notice? : Mark → Option Notice
  | .closed path true => some (.cached path)
  | _ => none

namespace Run

variable {σ N α : Type}

def ofExcept : Except Error α → Run σ α
  | .ok result => pure result
  | .error error => throw error

def note (notice : Notice) : Run σ Unit :=
  modify fun run => { run with notices := notice :: run.notices }

/-- Carries a pass out on a store.  The store comes back changed by all that the
pass has done, whether it fails or not. -/
def pass (store : Store N) (action : Evaluation σ N α) :
    Run σ (Except Error α × Store N) := fun run =>
  let after (final : Pass σ N) : RunState σ :=
    ⟨final.world, final.trail.filterMap Mark.notice? ++ run.notices⟩
  match action ⟨store, run.world, []⟩ with
  | .ok result final => .ok (.ok result, final.store) (after final)
  | .error error final => .ok (.error error, final.store) (after final)

/-- Turns the failure of an action into a result. -/
def attempt (action : Run σ α) : Run σ (Except Error α) := fun run =>
  match action run with
  | .ok result run => .ok (.ok result) run
  | .error error run => .ok (.error error) run

/-- Carries a pass out on a copy of a store. -/
def evaluate (store : Store N) (action : Evaluation σ N α) : Run σ α := do
  let (result, _) ← pass store action
  ofExcept result

/-- Caches a value outside of any pass. -/
def cacheValue (store : Store N) (path : Path) (value : Value N) : Run σ (Store N) := do
  if store.awaitsValue path then note (.cached path)
  return store.cacheValue path value

/-- The evaluator with a given budget, as far as that is allowed. -/
def evaluator (computations : Computations σ N) (limit : Nat) : Run σ (Evaluator σ N) := do
  if Evaluator.maxLimit < limit then note (.limitCapped limit Evaluator.maxLimit)
  return .capped computations limit

end Run

end DiagramEnergy
