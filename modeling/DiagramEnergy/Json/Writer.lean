import DiagramEnergy.Json

/-!
# Writing JSON

Values are written without blanks, members in their order.  Every writer puts
its text in front of a rest, so that a value is written in one sweep.
-/

namespace DiagramEnergy.Json

def hexDigits (code : Nat) : List Char :=
  let digits := Nat.toDigits 16 code
  List.replicate (4 - digits.length) '0' ++ digits

def escape (char : Char) : List Char :=
  if char = '"' then ['\\', '"']
  else if char = '\\' then ['\\', '\\']
  else if char = '\x08' then ['\\', 'b']
  else if char = '\x0c' then ['\\', 'f']
  else if char = '\n' then ['\\', 'n']
  else if char = '\r' then ['\\', 'r']
  else if char = '\t' then ['\\', 't']
  else if char.toNat < 0x20 then '\\' :: 'u' :: hexDigits char.toNat
  else [char]

def writeChars : List Char → List Char → List Char
  | [], rest => rest
  | char :: chars, rest => escape char ++ writeChars chars rest

/-- A missing text is written as half of a surrogate pair. -/
def writeText (characters : JsonText) (rest : List Char) : List Char :=
  match characters with
  | some characters => '"' :: writeChars characters.toList ('"' :: rest)
  | none => ['"', '\\', 'u', 'd', '8', '0', '0', '"'] ++ rest

def writeNumber (literal : JsonNumber) (rest : List Char) : List Char :=
  (if literal.negative then ['-'] else []) ++ literal.whole ++
    (match literal.fraction with
      | none => []
      | some digits => '.' :: digits) ++
    (match literal.exponent with
      | none => []
      | some (negative, digits) => 'e' :: (if negative then '-' else '+') :: digits) ++
    rest

mutual

def write (json : Json) (rest : List Char) : List Char :=
  match json with
  | .null => ['n', 'u', 'l', 'l'] ++ rest
  | .bool true => ['t', 'r', 'u', 'e'] ++ rest
  | .bool false => ['f', 'a', 'l', 's', 'e'] ++ rest
  | .number literal => writeNumber literal rest
  | .text characters => writeText characters rest
  | .array elements => '[' :: writeElements elements (']' :: rest)
  | .object members => '\x7b' :: writeMembers members ('\x7d' :: rest)

def writeElements (elements : List Json) (rest : List Char) : List Char :=
  match elements with
  | [] => rest
  | [element] => write element rest
  | element :: next :: others => write element (',' :: writeElements (next :: others) rest)

def writeMembers (members : List (JsonText × Json)) (rest : List Char) : List Char :=
  match members with
  | [] => rest
  | [(key, value)] => writeText key (':' :: write value rest)
  | (key, value) :: next :: others =>
    writeText key (':' :: write value (',' :: writeMembers (next :: others) rest))

end

def render (json : Json) : String := String.ofList (json.write [])

/-- A record with its members in a given order. -/
def record (members : List (String × Json)) : Json :=
  .object (members.map fun (name, value) => (some name, value))

def string (characters : String) : Json := .text (some characters)

end DiagramEnergy.Json
