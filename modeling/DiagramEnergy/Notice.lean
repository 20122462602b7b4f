import DiagramEnergy.Error

/-!
# Notices

Remarks that a run makes beside its results, with their level of importance.
-/

namespace DiagramEnergy

inductive Level where
  | warn
  | debug
  | trace
  deriving DecidableEq

namespace Level

def rank : Level → Nat
  | .warn => 1
  | .debug => 2
  | .trace => 3

def name : Level → String
  | .warn => "WARN"
  | .debug => "DEBUG"
  | .trace => "TRACE"

/-- Whether a run at this level of detail shows notices of another level. -/
def shows (detail level : Level) : Bool := level.rank ≤ detail.rank

end Level

inductive Notice where
  | limitCapped (wanted highest : Nat)
  | avoidIgnored (name : String) (path : Path)
  | sampleDropped (path : Path)
  | shapeNotSampled (path : Path) (kind : String)
  | propertyNotSampled (path : Path)
  | analyzed (varying uninitialized : Nat)
  | compiled (objectives constraints varying : Nat)
  | initialEnergy (value : Float)
  | initialEnergyUnavailable (error : Error)
  | cached (path : Path)
  deriving DecidableEq

namespace Notice

def level : Notice → Level
  | .limitCapped _ _ => .warn
  | .avoidIgnored _ _ => .warn
  | .sampleDropped _ => .warn
  | .shapeNotSampled _ _ => .warn
  | .propertyNotSampled _ => .warn
  | .analyzed _ _ => .debug
  | .compiled _ _ _ => .debug
  | .initialEnergy _ => .debug
  | .initialEnergyUnavailable _ => .debug
  | .cached _ => .trace

def text : Notice → String
  | .limitCapped wanted highest =>
    "recursion limit " ++ toString wanted ++ " capped at " ++ toString highest
  | .avoidIgnored name path =>
    "avoid function '" ++ name ++ "' at " ++ path.text ++ " is ignored"
  | .sampleDropped path =>
    "free field " ++ path.text ++ " is not a scalar slot; sample dropped"
  | .shapeNotSampled path kind =>
    "shape " ++ path.text ++ " has unknown type '" ++ kind ++ "'; not sampled"
  | .propertyNotSampled path =>
    "sampled property " ++ path.text ++ " has no slot in the store"
  | .analyzed varying uninitialized =>
    toString varying ++ " varying paths, " ++ toString uninitialized ++
      " uninitialized properties"
  | .compiled objectives constraints varying =>
    "compiled energy: " ++ toString objectives ++ " objectives, " ++
      toString constraints ++ " constraints, " ++ toString varying ++ " varying paths"
  | .initialEnergy value => "initial energy " ++ FloatStyle.plain.text value
  | .initialEnergyUnavailable error => "initial energy unavailable: " ++ error.text
  | .cached path => "cached " ++ path.text

end Notice

end DiagramEnergy
