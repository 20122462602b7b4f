/-!
# Phases of an optimization

An outer iteration raises the penalty weight; inside it an unconstrained search
runs until it stops.
-/

namespace DiagramEnergy

inductive Phase where
  | newIteration
  | running (values : List Float)
  | stopped (values : List Float)
  | finished
  deriving DecidableEq

namespace Phase

instance : Inhabited Phase := ⟨.newIteration⟩

/-- Whether one phase may follow another. -/
def permits : Phase → Phase → Bool
  | .newIteration, .running _ => true
  | .running _, .running _ => true
  | .running _, .stopped _ => true
  | .stopped _, .newIteration => true
  | .stopped _, .finished => true
  | _, _ => false

def isFinished : Phase → Bool
  | .finished => true
  | _ => false

end Phase

end DiagramEnergy
