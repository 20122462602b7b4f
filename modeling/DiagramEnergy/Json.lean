/-!
# JSON values

A number keeps its digits, because what it stands for depends on the type that
is asked for.  A text is missing when one of its escapes is half of a surrogate
pair: such a text can be skipped but not used.
-/

namespace DiagramEnergy

/-- A number as it is written. -/
structure JsonNumber where
  negative : Bool
  whole : List Char
  fraction : Option (List Char)
  /-- Whether the exponent is negative, and its digits. -/
  exponent : Option (Bool × List Char)
  deriving DecidableEq

abbrev JsonText := Option String

inductive Json where
  | null
  | bool (truth : Bool)
  | number (literal : JsonNumber)
  | text (characters : JsonText)
  | array (elements : List Json)
  | object (members : List (JsonText × Json))

instance : Inhabited Json := ⟨.null⟩

namespace Json

def isBlank (char : Char) : Bool :=
  char == ' ' || char == '\n' || char == '\t' || char == '\r'

def skipBlanks (source : List Char) : List Char := source.dropWhile isBlank

end Json

end DiagramEnergy
