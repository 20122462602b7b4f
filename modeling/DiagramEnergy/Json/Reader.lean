import DiagramEnergy.Json

/-!
# Reading JSON

The reader accepts exactly one value with blanks around it.  It does not say
why it refuses a text.
-/

namespace DiagramEnergy.Json

/-! ## Numbers -/

/-- Digits, of which there must be one. -/
def readDigits (source : List Char) : Option (List Char × List Char) :=
  let digits := source.takeWhile Char.isDigit
  if digits.isEmpty then none else some (digits, source.dropWhile Char.isDigit)

/-- A whole number has no leading zero. -/
def readWhole (source : List Char) : Option (List Char × List Char) := do
  let (digits, rest) ← readDigits source
  if digits.head? = some '0' ∧ digits.length ≠ 1 then none
  else return (digits, rest)

def readFraction : List Char → Option (Option (List Char) × List Char)
  | '.' :: rest => do
    let (digits, rest) ← readDigits rest
    return (some digits, rest)
  | rest => some (none, rest)

def readExponentSign : List Char → Bool × List Char
  | '+' :: rest => (false, rest)
  | '-' :: rest => (true, rest)
  | rest => (false, rest)

def readExponent (source : List Char) : Option (Option (Bool × List Char) × List Char) :=
  match source with
  | mark :: rest =>
    if mark = 'e' ∨ mark = 'E' then do
      let (negative, rest) := readExponentSign rest
      let (digits, rest) ← readDigits rest
      return (some (negative, digits), rest)
    else some (none, source)
  | [] => some (none, [])

def readUnsigned (negative : Bool) (source : List Char) :
    Option (JsonNumber × List Char) := do
  let (whole, rest) ← readWhole source
  let (fraction, rest) ← readFraction rest
  let (exponent, rest) ← readExponent rest
  return (⟨negative, whole, fraction, exponent⟩, rest)

def readNumber : List Char → Option (JsonNumber × List Char)
  | '-' :: rest => readUnsigned true rest
  | rest => readUnsigned false rest

/-! ## Texts -/

def hexDigit? (char : Char) : Option Nat :=
  if char.isDigit then some (char.toNat - '0'.toNat)
  else if 'a' ≤ char ∧ char ≤ 'f' then some (char.toNat - 'a'.toNat + 10)
  else if 'A' ≤ char ∧ char ≤ 'F' then some (char.toNat - 'A'.toNat + 10)
  else none

def hexNumber? (digits : List Char) : Option Nat :=
  digits.foldlM (fun number digit => (16 * number + ·) <$> hexDigit? digit) 0

def escaped? : Char → Option Char
  | '"' => some '"'
  | '\\' => some '\\'
  | '/' => some '/'
  | 'b' => some '\x08'
  | 'f' => some '\x0c'
  | 'n' => some '\n'
  | 'r' => some '\r'
  | 't' => some '\t'
  | _ => none

/-- The code points of a text up to its closing quote, where halves of surrogate
pairs still stand alone. -/
def readCodes : List Char → Option (List Nat × List Char)
  | [] => none
  | '"' :: rest => some ([], rest)
  | '\\' :: 'u' :: a :: b :: c :: d :: rest => do
    let code ← hexNumber? [a, b, c, d]
    let (codes, rest) ← readCodes rest
    return (code :: codes, rest)
  | '\\' :: char :: rest => do
    let char ← escaped? char
    let (codes, rest) ← readCodes rest
    return (char.toNat :: codes, rest)
  | char :: rest =>
    if char.toNat < 0x20 then none
    else do
      let (codes, rest) ← readCodes rest
      return (char.toNat :: codes, rest)

def isHighHalf (code : Nat) : Bool := 0xd800 ≤ code && code < 0xdc00

def isLowHalf (code : Nat) : Bool := 0xdc00 ≤ code && code < 0xe000

/-- Joins the halves of pairs; a half without its other half spoils the text. -/
def joinHalves : List Nat → Option (List Char)
  | [] => some []
  | high :: low :: rest =>
    if isHighHalf high then
      if isLowHalf low then do
        let chars ← joinHalves rest
        return Char.ofNat (0x10000 + (high - 0xd800) * 0x400 + (low - 0xdc00)) :: chars
      else none
    else if isLowHalf high then none
    else do
      let chars ← joinHalves (low :: rest)
      return Char.ofNat high :: chars
  | [code] => if isHighHalf code || isLowHalf code then none else some [Char.ofNat code]

/-- A text behind its opening quote. -/
def readText (source : List Char) : Option (JsonText × List Char) := do
  let (codes, rest) ← readCodes source
  return ((joinHalves codes).map String.ofList, rest)

/-! ## Values -/

mutual

/-- Reads one value; nested reads take one unit of fuel each. -/
def readValue (fuel : Nat) (source : List Char) : Option (Json × List Char) :=
  match fuel with
  | 0 => none
  | fuel + 1 =>
    match skipBlanks source with
    | '\x7b' :: rest =>
      match skipBlanks rest with
      | '\x7d' :: rest => some (.object [], rest)
      | rest => do
        let (members, rest) ← readMembers fuel rest
        return (.object members, rest)
    | '[' :: rest =>
      match skipBlanks rest with
      | ']' :: rest => some (.array [], rest)
      | rest => do
        let (elements, rest) ← readElements fuel rest
        return (.array elements, rest)
    | '"' :: rest => do
      let (characters, rest) ← readText rest
      return (.text characters, rest)
    | 'n' :: 'u' :: 'l' :: 'l' :: rest => some (.null, rest)
    | 't' :: 'r' :: 'u' :: 'e' :: rest => some (.bool true, rest)
    | 'f' :: 'a' :: 'l' :: 's' :: 'e' :: rest => some (.bool false, rest)
    | rest => do
      let (literal, rest) ← readNumber rest
      return (.number literal, rest)
  termination_by structural fuel

/-- Reads the elements of an array up to its closing bracket. -/
def readElements (fuel : Nat) (source : List Char) : Option (List Json × List Char) :=
  match fuel with
  | 0 => none
  | fuel + 1 => do
    let (element, rest) ← readValue fuel source
    match skipBlanks rest with
    | ',' :: rest =>
      let (elements, rest) ← readElements fuel rest
      return (element :: elements, rest)
    | ']' :: rest => return ([element], rest)
    | _ => none
  termination_by structural fuel

/-- Reads the members of an object up to its closing brace. -/
def readMembers (fuel : Nat) (source : List Char) :
    Option (List (JsonText × Json) × List Char) :=
  match fuel with
  | 0 => none
  | fuel + 1 =>
    match skipBlanks source with
    | '"' :: rest => do
      let (key, rest) ← readText rest
      match skipBlanks rest with
      | ':' :: rest =>
        let (value, rest) ← readValue fuel rest
        match skipBlanks rest with
        | ',' :: rest =>
          let (members, rest) ← readMembers fuel rest
          return ((key, value) :: members, rest)
        | '\x7d' :: rest => return ([(key, value)], rest)
        | _ => none
      | _ => none
    | _ => none
  termination_by structural fuel

end

/-- Every second nested read consumes a character, so the fuel is never short. -/
def parse (source : String) : Option Json :=
  match readValue (2 * source.length + 2) source.toList with
  | some (value, rest) => if (skipBlanks rest).isEmpty then some value else none
  | none => none

end DiagramEnergy.Json
