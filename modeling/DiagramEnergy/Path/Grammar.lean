import DiagramEnergy.Path

/-!
# The written form of a path

A written path is two or three identifiers with dots between them, and blanks
anywhere around these.  The third identifier is optional up to the second dot
and required after it.  A text that is no path is refused at the first
character that cannot continue one, with the name of what was missing there.
-/

namespace DiagramEnergy

/-- A refused path text, with the column (from one) where it went wrong. -/
structure SyntaxError where
  message : String
  column : Nat
  input : String
  deriving DecidableEq

namespace SyntaxError

/-- A mark below the column, which never leaves the text by more than one. -/
def caret (error : SyntaxError) : String :=
  String.ofList (List.replicate (min (error.column - 1) error.input.length) ' ') ++ "^"

def text (error : SyntaxError) : String :=
  error.message ++ " at column " ++ toString error.column ++
    "\n    " ++ error.input ++ "\n    " ++ error.caret

end SyntaxError

namespace Path

/-- What a path text can be missing. -/
inductive Expected where
  | objectName
  | dot
  | fieldName
  | propertyName
  | endOfText
  deriving DecidableEq

def Expected.message : Expected → String
  | .objectName => "Syntax error: expected object name"
  | .dot => "Syntax error: expected '.'"
  | .fieldName => "Syntax error: expected field name"
  | .propertyName => "Syntax error: expected property name"
  | .endOfText => "Syntax error near Eof"

/-- What was missing, and the text from there on. -/
structure Refusal where
  expected : Expected
  rest : List Char
  deriving DecidableEq

def isBlank (char : Char) : Bool :=
  char == ' ' || char == '\t' || char == '\r' || char == '\n'

/-- The letters are those of ASCII. -/
def startsName (char : Char) : Bool := char == '_' || char.isAlpha

def continuesName (char : Char) : Bool := char == '_' || char.isAlphanum

def skipBlanks (text : List Char) : List Char := text.dropWhile isBlank

/-- Reads an identifier and the blanks on both sides of it. -/
def readName (expected : Expected) (text : List Char) :
    Except Refusal (String × List Char) :=
  match skipBlanks text with
  | [] => .error ⟨expected, []⟩
  | first :: rest =>
    if startsName first then
      .ok (String.ofList (first :: rest.takeWhile continuesName),
        skipBlanks (rest.dropWhile continuesName))
    else .error ⟨expected, first :: rest⟩

def readDot : List Char → Except Refusal (List Char)
  | '.' :: rest => .ok (skipBlanks rest)
  | rest => .error ⟨.dot, rest⟩

def readEnd : List Char → Except Refusal Unit
  | [] => .ok ()
  | rest => .error ⟨.endOfText, rest⟩

def ofChars (text : List Char) : Except Refusal Path := do
  let (object, rest) ← readName .objectName text
  let rest ← readDot rest
  let (slot, rest) ← readName .fieldName rest
  match rest with
  | '.' :: rest =>
    let (name, rest) ← readName .propertyName rest
    readEnd rest
    return .property object slot name
  | rest =>
    readEnd rest
    return .field object slot

/-- The column after a text: columns start again behind each line feed. -/
def columnAfter (consumed : List Char) : Nat :=
  1 + (consumed.reverse.takeWhile (· != '\n')).length

def parse (input : String) : Except SyntaxError Path :=
  match ofChars input.toList with
  | .ok path => .ok path
  | .error refusal =>
    let consumed := input.toList.take (input.toList.length - refusal.rest.length)
    .error ⟨refusal.expected.message, columnAfter consumed, input⟩

end Path

end DiagramEnergy
