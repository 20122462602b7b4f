import DiagramEnergy.Config
import DiagramEnergy.Run

/-!
# Energies

An energy is a function of the varying values: the sum of all objectives, plus
the sum of all constraints times a weight.  Every evaluation starts from the
same store, so nothing that one evaluation caches reaches the next.
-/

namespace DiagramEnergy

structure EnergyTerms (N : Type) where
  objective : N
  /-- The constraint sum with its weight. -/
  constraint : N
  deriving DecidableEq

def EnergyTerms.total {N : Type} [Scalar N] (terms : EnergyTerms N) : N :=
  terms.objective + terms.constraint

structure Energy (σ N : Type) where
  store : Store N
  objectives : List Call
  constraints : List Call
  varyingPaths : List Path
  registries : Registries σ N
  constraintWeight : Float
  recursionLimit : Nat

namespace Energy

variable {σ τ M N : Type}

def compile (store : Store N) (objectives constraints : List Call) (varyingPaths : List Path)
    (registries : Registries σ N) (config : Config) : Run σ (Energy σ N) := do
  .note (.compiled objectives.length constraints.length varyingPaths.length)
  return ⟨store, objectives, constraints, varyingPaths, registries,
    config.constraintWeight, config.recursionLimit⟩

/-- The evaluator with the functions and the budget of an energy. -/
def evaluator (energy : Energy σ N) : Run σ (Evaluator σ N) :=
  .evaluator energy.registries.computations energy.recursionLimit

/-- The same energy over other numbers. -/
def lift [Scalar M] (energy : Energy σ Float) (registries : Registries τ M) : Energy τ M :=
  { energy with store := energy.store.lift, registries }

variable [Scalar N]

/-- Adds the scores of some calls to a total, in order. -/
def score (registries : Registries σ N) (total : N) : List (EvaluatedCall N) → Except Error N
  | [] => .ok total
  | call :: rest => do
    let scored ← (registries.forRole call.role).call call.name call.arguments
    score registries (total + scored) rest

/-- Evaluates the arguments of all calls, objectives first, on one store. -/
def evalCalls (energy : Energy σ N) (evaluator : Evaluator σ N) (overrides : Overrides N) :
    Evaluation σ N (List (EvaluatedCall N) × List (EvaluatedCall N)) := do
  let objectives ← energy.objectives.mapM (evaluator.evalCall overrides)
  let constraints ← energy.constraints.mapM (evaluator.evalCall overrides)
  return (objectives, constraints)

def terms (energy : Energy σ N) (penaltyWeight : N) (values : List N) :
    Run σ (EnergyTerms N) := do
  let overrides ← .ofExcept (Overrides.ofParts energy.varyingPaths values)
  let evaluator ← energy.evaluator
  let (objectives, constraints) ← .evaluate energy.store (energy.evalCalls evaluator overrides)
  let objective ← .ofExcept (score energy.registries Scalar.zero objectives)
  let constraint ← .ofExcept (score energy.registries Scalar.zero constraints)
  let weight := Scalar.ofFloat energy.constraintWeight * penaltyWeight
  return ⟨objective, constraint * weight⟩

def evaluate (energy : Energy σ N) (penaltyWeight : N) (values : List N) : Run σ N :=
  EnergyTerms.total <$> energy.terms penaltyWeight values

end Energy

end DiagramEnergy
