/-!
# Slot paths

A slot is addressed by the object and field that hold it and, inside a shape,
by the name of a property.  Paths are ordered: fields come before properties,
and within each kind the names decide from left to right.
-/

namespace DiagramEnergy

inductive Path where
  | field (object slot : String)
  | property (object slot name : String)
  deriving DecidableEq

namespace Path

def object : Path → String
  | .field object _ => object
  | .property object _ _ => object

def fieldName : Path → String
  | .field _ slot => slot
  | .property _ slot _ => slot

def propertyName? : Path → Option String
  | .field _ _ => none
  | .property _ _ name => some name

def isField : Path → Bool
  | .field _ _ => true
  | .property _ _ _ => false

/-- The field that a path lies in. -/
def owner (path : Path) : Path := .field path.object path.fieldName

def names : Path → List String
  | .field object slot => [object, slot]
  | .property object slot name => [object, slot, name]

/-- The names of a path, joined by dots. -/
def text (path : Path) : String := ".".intercalate path.names

theorem names_injective {left right : Path} (same : left.names = right.names) :
    left = right := by
  cases left <;> cases right <;> simp_all [names]

/-- Shorter paths, which are the fields, come first. -/
instance : Ord Path where
  compare := compareLex (compareOn fun path => path.names.length) (compareOn names)

instance : Std.TransOrd Path :=
  inferInstanceAs
    (Std.TransCmp (compareLex (compareOn fun path => path.names.length) (compareOn names)))

instance : Std.LawfulEqOrd Path where
  compare_self {_} := @Std.ReflCmp.compare_self _ (compareLex _ _) _ _
  eq_of_compare same :=
    names_injective (Std.LawfulEqOrd.eq_of_compare (compareLex_eq_eq.1 same).2)

end Path

end DiagramEnergy
