import DiagramEnergy.Json.Number
import DiagramEnergy.Table

/-!
# Values from JSON

Readers for the parts of configurations and catalogs.  A record is an object
with members in any order, or an array of its fields in their order; an unknown
member is skipped, a known one must not be repeated.
-/

namespace DiagramEnergy.Json

def toBool? : Json → Option Bool
  | .bool truth => some truth
  | _ => none

def toString? : Json → Option String
  | .text characters => characters
  | _ => none

def toFloat? : Json → Option Float
  | .number literal =>
    literal.meaning?.map fun
      | .natural value => (UInt64.ofNat value).toFloat
      | .negative magnitude => -(UInt64.ofNat magnitude).toFloat
      | .float value => value
  | _ => none

def toNat? : Json → Option Nat
  | .number literal =>
    match literal.meaning? with
    | some (.natural value) => some value
    | _ => none
  | _ => none

def toInt64? : Json → Option Int64
  | .number literal =>
    match literal.meaning? with
    | some (.natural value) => if value < Nat.pow 2 63 then some (.ofNat value) else none
    | some (.negative magnitude) => some (.ofInt (-magnitude))
    | _ => none
  | _ => none

def toList? {α : Type} (element? : Json → Option α) : Json → Option (List α)
  | .array elements => elements.mapM element?
  | _ => none

/-- An object as a table, in which the last member of a name counts. -/
def toTable? {α : Type} (value? : Json → Option α) : Json → Option (Table String α)
  | .object members => do
    let bindings ← members.mapM fun (key, value) => do
      let key ← key
      let value ← value? value
      return (key, value)
    return .ofList bindings
  | _ => none

/-- The fields of a record, in the order of their names. -/
def fields? (names : List String) : Json → Option (List (Option Json))
  | .object members => do
    let members ← members.mapM fun (key, value) => key.map fun key => (key, value)
    names.mapM fun name =>
      match members.filter fun member => member.1 == name with
      | [] => some none
      | [(_, value)] => some (some value)
      | _ => none
  | .array elements =>
    if elements.length ≤ names.length then
      some (elements.map some ++ List.replicate (names.length - elements.length) none)
    else none
  | _ => none

def required? {α : Type} (value? : Json → Option α) : Option Json → Option α
  | some value => value? value
  | none => none

def optional? {α : Type} (default : α) (value? : Json → Option α) : Option Json → Option α
  | some value => value? value
  | none => some default

/-- A choice between variants is the name of one, or an object with the name as
its only key; without a content that is `null`. -/
def variant? : Json → Option (String × Option Json)
  | .text (some name) => some (name, none)
  | .object [(some name, content)] => some (name, some content)
  | _ => none

/-- The content of a variant that has none. -/
def noContent? : Option Json → Option Unit
  | none => some ()
  | some .null => some ()
  | _ => none

end DiagramEnergy.Json
