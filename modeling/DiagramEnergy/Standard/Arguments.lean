import DiagramEnergy.Value

/-!
# Reading arguments

How the standard functions take their arguments apart.
-/

namespace DiagramEnergy.Standard

variable {N : Type}

/-- All arguments as floats, if there are `count` of them. -/
def floats (function : String) (count : Nat) (arguments : List (Evaluated N)) :
    Except Error (List N) :=
  if arguments.length = count then arguments.mapM (·.toFloat function)
  else .error (.arity function count arguments.length)

def oneFloat (function : String) (arguments : List (Evaluated N)) : Except Error N := do
  match ← floats function 1 arguments with
  | [number] => return number
  | _ => .error (.arity function 1 arguments.length)

def twoFloats (function : String) (arguments : List (Evaluated N)) :
    Except Error (N × N) := do
  match ← floats function 2 arguments with
  | [first, second] => return (first, second)
  | _ => .error (.arity function 2 arguments.length)

def oneShape (function : String) (arguments : List (Evaluated N)) :
    Except Error (Shape N) :=
  match arguments with
  | [argument] => argument.toShape function
  | _ => .error (.arity function 1 arguments.length)

/-- The argument at an index, counted from zero. -/
def argumentAt (function : String) (arguments : List (Evaluated N)) (index : Nat) :
    Except Error (Evaluated N) :=
  match arguments[index]? with
  | some argument => .ok argument
  | none => .error (.arity function (index + 1) arguments.length)

def shapeAt (function : String) (arguments : List (Evaluated N)) (index : Nat) :
    Except Error (Shape N) := do
  (← argumentAt function arguments index).toShape function

def floatAt (function : String) (arguments : List (Evaluated N)) (index : Nat) :
    Except Error N := do
  (← argumentAt function arguments index).toFloat function

end DiagramEnergy.Standard
