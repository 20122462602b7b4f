import DiagramEnergy.Proofs.Evaluation.Descent

/-!
# Evaluation by name

The outcome of an expression when nothing is cached and no budget ends the
evaluation: overrides answer first, operands and arguments are evaluated from
left to right, and the first error wins.  A descent without caching reaches
that outcome with every budget that is large enough, so there is at most one.
-/

namespace DiagramEnergy

namespace ByName

variable {σ N : Type}

/-- What a slot makes of the result of its expression. -/
def accepted (path : Path) : Evaluated N → Except Error (Evaluated N)
  | .plain value => .ok (.plain value)
  | .shaped shape =>
      if path.isField then .ok (.shaped shape)
      else .error (.typeMismatch path.text (.shapeInProperty shape.name))

def plain (context : String) (outcome : Except Error (Evaluated N)) :
    Except Error (Value N) :=
  outcome >>= (·.toValue context)

def operandContext (op : BinaryOp) : String := "operand of '" ++ op.symbol ++ "'"

variable [Scalar N] (computations : Computations σ N) (store : Store N)
  (overrides : Overrides N)

mutual

/-- The outcome of an expression on a store with overrides. -/
inductive Evaluates : Expr → Except Error (Evaluated N) → Prop where
  | leaf {expr : Expr} (leaf : expr.isLeaf = true) :
      Evaluates expr expr.literal
  | unary {op : UnaryOp} {operand : Expr}
      {outcome : Except Error (Evaluated N)} :
      Evaluates operand outcome →
      Evaluates (.unary op operand) (do
        let value ← plain "unary operand" outcome
        Evaluated.plain <$> op.apply value)
  | left {op : BinaryOp} {left right : Expr} {error : Error}
      {outcome : Except Error (Evaluated N)} :
      Evaluates left outcome →
      plain (operandContext op) outcome = .error error →
      Evaluates (.binary op left right) (.error error)
  | binary {op : BinaryOp} {left right : Expr} {leftValue : Value N}
      {outcome : Except Error (Evaluated N)} :
      Evaluates left (.ok (.plain leftValue)) →
      Evaluates right outcome →
      Evaluates (.binary op left right) (do
        let rightValue ← plain (operandContext op) outcome
        Evaluated.plain <$> op.apply leftValue rightValue)
  | unregistered {name : String} {arguments : List Expr} :
      computations.get? name = none →
      Evaluates (.computation name arguments)
        (.error (.unknownComputation name))
  | computation {name : String} {arguments : List Expr}
      {function : List (Evaluated N) → Except Error (Evaluated N)}
      {outcome : Except Error (List (Evaluated N))} :
      computations.get? name = some (.ofFunction function) →
      EvaluatesAll arguments outcome →
      Evaluates (.computation name arguments) (outcome >>= function)
  | missing {path : Path} {error : Error} :
      store.demand overrides path = .error error →
      Evaluates (.reference path) (.error error)
  | ready {path : Path} {value : Value N} :
      store.demand overrides path = .ok (.ready value) →
      Evaluates (.reference path) (.ok (.plain value))
  | slot {path : Path} {expr : Expr} {outcome : Except Error (Evaluated N)} :
      store.demand overrides path = .ok (.evaluate expr) →
      Evaluates expr outcome →
      Evaluates (.reference path) (outcome >>= accepted path)
  | shape {path : Path} {kind : String} {names : List String}
      {outcome : Except Error (List (String × Value N))} :
      store.demand overrides path = .ok (.assemble kind names) →
      EvaluatesProperties path names outcome →
      Evaluates (.reference path)
        ((fun values => .shaped (.assembled path kind values)) <$> outcome)

/-- The outcome of a list of arguments. -/
inductive EvaluatesAll :
    List Expr → Except Error (List (Evaluated N)) → Prop where
  | nil : EvaluatesAll [] (.ok [])
  | failed {expr : Expr} {rest : List Expr} {error : Error} :
      Evaluates expr (.error error) →
      EvaluatesAll (expr :: rest) (.error error)
  | cons {expr : Expr} {rest : List Expr} {result : Evaluated N}
      {outcome : Except Error (List (Evaluated N))} :
      Evaluates expr (.ok result) →
      EvaluatesAll rest outcome →
      EvaluatesAll (expr :: rest) ((result :: ·) <$> outcome)

/-- The outcome of the properties of the shape at a path. -/
inductive EvaluatesProperties : Path → List String →
    Except Error (List (String × Value N)) → Prop where
  | empty {path : Path} : EvaluatesProperties path [] (.ok [])
  | refused {path : Path} {name : String} {rest : List String} {error : Error}
      {outcome : Except Error (Evaluated N)} :
      Evaluates (.reference (.property path.object path.fieldName name))
        outcome →
      plain (Path.property path.object path.fieldName name).text outcome =
        .error error →
      EvaluatesProperties path (name :: rest) (.error error)
  | property {path : Path} {name : String} {rest : List String} {value : Value N}
      {outcome : Except Error (List (String × Value N))} :
      Evaluates (.reference (.property path.object path.fieldName name))
        (.ok (.plain value)) →
      EvaluatesProperties path rest outcome →
      EvaluatesProperties path (name :: rest)
        (((name, value) :: ·) <$> outcome)

end

end ByName

end DiagramEnergy
