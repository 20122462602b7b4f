import DiagramEnergy.Error
import DiagramEnergy.Table

/-!
# Overrides

The values that an optimizer currently tries for the varying paths.  During one
evaluation pass they answer before the store does.
-/

namespace DiagramEnergy

structure Overrides (N : Type) where
  values : Table Path N

namespace Overrides

variable {N : Type}

def empty : Overrides N := ⟨.empty⟩

/-- Pairs paths with values; of a repeated path the last value counts. -/
def ofParts (paths : List Path) (values : List N) : Except Error (Overrides N) :=
  if paths.length = values.length then .ok ⟨.ofList (paths.zip values)⟩
  else .error (.arity "varying vector" paths.length values.length)

def get? (overrides : Overrides N) (path : Path) : Option N :=
  overrides.values.get? path

def size (overrides : Overrides N) : Nat := overrides.values.size

def isEmpty (overrides : Overrides N) : Bool := overrides.values.isEmpty

end Overrides

end DiagramEnergy
