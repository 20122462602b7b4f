import DiagramEnergy.Evaluator.Entry
import DiagramEnergy.Proofs.Numbers.Integers

/-!
# Expressions of integers

An expression made of integer literals and operators has an exact value, unless
it divides by zero or raises to a negative exponent.  Main statement: evaluation
computes this value if the values of all parts exist and fit 64 bits, and no
power has an exponent past 32 bits; otherwise it reports the first part, from
left to right and operands first, for which that is not so.
-/

namespace DiagramEnergy

inductive IntExpr where
  | literal (value : Int64)
  | unary (op : UnaryOp) (operand : IntExpr)
  | binary (op : BinaryOp) (left right : IntExpr)

namespace IntExpr

def toExpr : IntExpr → Expr
  | .literal value => .int value
  | .unary op operand => .unary op operand.toExpr
  | .binary op left right => .binary op left.toExpr right.toExpr

/-- How many expressions are nested in one another. -/
def height : IntExpr → Nat
  | .literal _ => 1
  | .unary _ operand => operand.height + 1
  | .binary _ left right => max left.height right.height + 1

/-- The value in exact arithmetic. -/
def exactValue? : IntExpr → Option Int
  | .literal value => some value.toInt
  | .unary .plus operand => operand.exactValue?
  | .unary .minus operand => operand.exactValue?.map fun value => -value
  | .binary op left right =>
    left.exactValue?.bind fun first => right.exactValue?.bind fun second =>
      op.exactResult? first second

/-- An expression and everything in it in the order of evaluation: operands from
left to right, then the operation. -/
def parts : IntExpr → List IntExpr
  | .literal value => [.literal value]
  | .unary op operand => operand.parts ++ [.unary op operand]
  | .binary op left right => left.parts ++ (right.parts ++ [.binary op left right])

/-- Whether an expression is a power with an exponent past 32 bits. -/
def Steep : IntExpr → Prop
  | .binary op _ right =>
    ∃ exponent, right.exactValue? = some exponent ∧ Integer.isSteep op exponent = true
  | _ => False

/-- The exact value exists and fits 64 bits, and no steep power is asked for. -/
structure Accepted (tree : IntExpr) : Prop where
  fits : ∃ value, tree.exactValue? = some value ∧ Integer.fits value = true
  gentle : ¬ tree.Steep

/-- Why an operation fails on operands that have exact values. -/
inductive Fails : IntExpr → Error → Prop where
  | zeroDivisor {left right : IntExpr} {dividend : Int}
      (first : left.exactValue? = some dividend) (second : right.exactValue? = some 0) :
      Fails (.binary .divide left right)
        (.divisionByZero (BinaryOp.divide.shown dividend 0))
  | negativeExponent {left right : IntExpr} {base exponent : Int}
      (first : left.exactValue? = some base) (second : right.exactValue? = some exponent)
      (negative : exponent < 0) :
      Fails (.binary .power left right)
        (.typeMismatch (BinaryOp.power.shown base exponent) .negativeExponent)
  | negationOverflow {operand : IntExpr} {value : Int}
      (only : operand.exactValue? = some value)
      (outside : Integer.fits (-value) = false) :
      Fails (.unary .minus operand)
        (.integerOverflow ("-(" ++ toString value ++ ")"))
  | overflow {op : BinaryOp} {left right : IntExpr} {first second value : Int}
      (firstExact : left.exactValue? = some first)
      (secondExact : right.exactValue? = some second)
      (exact : op.exactResult? first second = some value)
      (outside : Integer.fits value = false ∨ Integer.isSteep op second = true) :
      Fails (.binary op left right) (.integerOverflow (op.shown first second))

/-- All parts are accepted, and a number is the exact value of the whole. -/
def Computes (tree : IntExpr) (number : Int64) : Prop :=
  (∀ part ∈ tree.parts, part.Accepted) ∧ tree.exactValue? = some number.toInt

/-- An error is that of the first expression in a list that is not accepted. -/
def FailFirst (parts : List IntExpr) (error : Error) : Prop :=
  ∃ before part after, parts = before ++ part :: after ∧
    (∀ earlier ∈ before, earlier.Accepted) ∧ part.Fails error

/-! ## What the operations do, without an evaluator -/

/-- The value of an expression, or the error of the operation that fails first. -/
def computed : IntExpr → Except Error Int64
  | .literal value => .ok value
  | .unary .plus operand => operand.computed
  | .unary .minus operand => do Integer.negate (← operand.computed)
  | .binary op left right => do
    Integer.operate op (← left.computed) (← right.computed)

section Evaluation

variable {σ N : Type}

theorem ofExcept_bind {α β γ : Type} (outcome : Except Error α)
    (wrap : α → β) (next : β → Evaluation σ N γ) :
    (Evaluation.ofExcept (wrap <$> outcome) >>= next) =
      match outcome with
      | .ok result => next (wrap result)
      | .error error => throw error := by
  cases outcome <;> rfl

variable [Scalar N] (evaluator : Evaluator σ N) (overrides : Overrides N)

/-- Within its budget, evaluation does nothing but compute. -/
theorem evalExpr_toExpr (tree : IntExpr) {budget : Nat}
    (enough : tree.height ≤ budget) :
    evaluator.evalExpr overrides budget tree.toExpr =
      .ofExcept ((fun value => .plain (.int value)) <$> tree.computed) := by
  induction tree generalizing budget with
  | literal value =>
      cases budget with
      | zero => simp [height] at enough
      | succ budget => rfl
  | unary op operand induction =>
      cases budget with
      | zero => simp [height] at enough
      | succ budget =>
          simp only [toExpr, Evaluator.evalExpr]
          rw [induction (by simpa [height] using enough), ofExcept_bind]
          cases op <;> simp only [computed]
          · cases operand.computed <;> rfl
          · cases operand.computed with
            | error error => rfl
            | ok value =>
                change Evaluated.plain <$> Evaluation.ofExcept
                  (.int <$> Integer.negate value) = Evaluation.ofExcept
                    ((fun value => .plain (.int value)) <$> Integer.negate value)
                cases Integer.negate value <;> rfl
  | binary op left right leftInduction rightInduction =>
      cases budget with
      | zero => simp [height] at enough
      | succ budget =>
          simp only [height, Nat.add_le_add_iff_right, Nat.max_le] at enough
          simp only [toExpr, Evaluator.evalExpr]
          rw [leftInduction enough.1, rightInduction enough.2, ofExcept_bind]
          simp only [computed]
          cases left.computed with
          | error error => rfl
          | ok first =>
              simp only [ofExcept_bind]
              cases right.computed with
              | error error => rfl
              | ok second =>
                  change Evaluated.plain <$> Evaluation.ofExcept
                    (.int <$> Integer.operate op first second) =
                      Evaluation.ofExcept ((fun value => .plain (.int value)) <$>
                        Integer.operate op first second)
                  cases Integer.operate op first second <;> rfl

end Evaluation

/-! ## What is computed -/

theorem accepted_of_exact {tree : IntExpr} {number : Int64}
    (exact : tree.exactValue? = some number.toInt) (gentle : ¬ tree.Steep) :
    tree.Accepted :=
  ⟨⟨number.toInt, exact, Integer.fits_toInt number⟩, gentle⟩

theorem Fails.not_accepted {tree : IntExpr} {error : Error}
    (fails : tree.Fails error) : ¬ tree.Accepted := by
  rintro ⟨⟨value, exact, fits⟩, gentle⟩
  cases fails with
  | zeroDivisor first second =>
      simp [exactValue?, first, second, BinaryOp.exactResult?] at exact
  | negativeExponent first second negative =>
      simp [exactValue?, first, second, BinaryOp.exactResult?, negative] at exact
  | negationOverflow only outside =>
      simp only [exactValue?, only, Option.map_some, Option.some.injEq] at exact
      rw [exact, fits] at outside
      cases outside
  | overflow first second same outside =>
      simp only [exactValue?, first, second, Option.bind_some, same,
        Option.some.injEq] at exact
      rcases outside with outside | steep
      · rw [exact, fits] at outside
        cases outside
      · exact gentle ⟨_, second, steep⟩

theorem Fails.unique {tree : IntExpr} {error other : Error}
    (fails : tree.Fails error) (also : tree.Fails other) : error = other := by
  cases fails <;> cases also <;>
    simp_all [BinaryOp.exactResult?]

/-- The value or the error of an expression says what its parts are like. -/
def Settles (tree : IntExpr) : Except Error Int64 → Prop
  | .ok number => tree.Computes number
  | .error error => FailFirst tree.parts error

/-- The same for the last operation alone. -/
def Judges (tree : IntExpr) : Except Error Int64 → Prop
  | .ok number => tree.Accepted ∧ tree.exactValue? = some number.toInt
  | .error error => tree.Fails error

theorem judges_negate {operand : IntExpr} {value : Int64}
    (exact : operand.exactValue? = some value.toInt) :
    (unary .minus operand).Judges (Integer.negate value) := by
  cases outcome : Integer.negate value with
  | ok number =>
      obtain ⟨-, same⟩ := Integer.ofExact_eq_ok_iff.1 outcome
      have exactly : (unary .minus operand).exactValue? = some number.toInt := by
        simp [exactValue?, exact, same]
      exact ⟨accepted_of_exact exactly id, exactly⟩
  | error error =>
      obtain ⟨outside, rfl⟩ := Integer.ofExact_eq_error_iff.1 outcome
      exact .negationOverflow exact outside

theorem judges_operate {op : BinaryOp} {left right : IntExpr}
    {first second : Int64} (firstExact : left.exactValue? = some first.toInt)
    (secondExact : right.exactValue? = some second.toInt) :
    (binary op left right).Judges (Integer.operate op first second) := by
  have whole : (binary op left right).exactValue? =
      op.exactResult? first.toInt second.toInt := by
    simp [exactValue?, firstExact, secondExact]
  rw [Integer.operate_eq]
  cases exact : op.exactResult? first.toInt second.toInt with
  | none =>
      cases op with
      | divide =>
          have zero : second.toInt = 0 := by
            simpa [BinaryOp.exactResult?] using exact
          rw [zero] at secondExact ⊢
          exact .zeroDivisor firstExact secondExact
      | power =>
          have negative : second.toInt < 0 := by
            simpa [BinaryOp.exactResult?] using exact
          exact .negativeExponent firstExact secondExact negative
      | _ => cases exact
  | some value =>
      by_cases steep : Integer.isSteep op second.toInt = true
      · simp only [if_pos steep]
        exact .overflow firstExact secondExact exact (.inr steep)
      · simp only [if_neg steep]
        cases outcome : Integer.ofExact
            (op.shown first.toInt second.toInt) value with
        | ok number =>
            obtain ⟨-, rfl⟩ := Integer.ofExact_eq_ok_iff.1 outcome
            have gentle : ¬ (binary op left right).Steep := by
              rintro ⟨exponent, found, tooSteep⟩
              rw [secondExact] at found
              cases found
              exact steep tooSteep
            rw [exact] at whole
            exact ⟨accepted_of_exact whole gentle, whole⟩
        | error error =>
            obtain ⟨outside, rfl⟩ := Integer.ofExact_eq_error_iff.1 outcome
            exact .overflow firstExact secondExact exact (.inl outside)

namespace FailFirst

variable {earlier parts later : List IntExpr} {error other : Error}

theorem append (first : FailFirst parts error) :
    FailFirst (parts ++ later) error := by
  obtain ⟨before, part, after, rfl, accepted, fails⟩ := first
  exact ⟨before, part, after ++ later, by simp, accepted, fails⟩

theorem prepend (accepted : ∀ part ∈ earlier, part.Accepted)
    (first : FailFirst parts error) : FailFirst (earlier ++ parts) error := by
  obtain ⟨before, part, after, rfl, alsoAccepted, fails⟩ := first
  refine ⟨earlier ++ before, part, after, by simp, ?_, fails⟩
  intro part member
  rcases List.mem_append.1 member with member | member
  · exact accepted part member
  · exact alsoAccepted part member

theorem not_accepted (first : FailFirst parts error) :
    ¬ ∀ part ∈ parts, part.Accepted := by
  obtain ⟨before, part, after, rfl, -, fails⟩ := first
  intro accepted
  exact fails.not_accepted (accepted part (by simp))

theorem unique (first : FailFirst parts error)
    (also : FailFirst parts other) : error = other := by
  obtain ⟨before, part, after, rfl, accepted, fails⟩ := first
  obtain ⟨before', part', after', same, accepted', fails'⟩ := also
  induction before generalizing before' with
  | nil =>
      cases before' with
      | nil =>
          cases same
          exact fails.unique fails'
      | cons head rest =>
          cases same
          exact absurd (accepted' part (by simp)) fails.not_accepted
  | cons head rest induction =>
      cases before' with
      | nil =>
          cases same
          exact absurd (accepted part' (by simp)) fails'.not_accepted
      | cons head' rest' =>
          simp only [List.cons_append, List.cons.injEq] at same
          exact induction (fun part member => accepted part (by simp [member]))
            rest' same.2 (fun part member => accepted' part (by simp [member]))

end FailFirst

/-- The last operation decides once everything before it is accepted. -/
theorem Judges.settles {tree : IntExpr} {outcome : Except Error Int64}
    (judges : tree.Judges outcome) (operands : List IntExpr)
    (parts : tree.parts = operands ++ [tree])
    (accepted : ∀ part ∈ operands, part.Accepted) : tree.Settles outcome := by
  cases outcome with
  | ok number =>
      refine ⟨?_, judges.2⟩
      intro part member
      rw [parts, List.mem_append, List.mem_singleton] at member
      rcases member with member | rfl
      · exact accepted part member
      · exact judges.1
  | error error => exact ⟨operands, tree, [], parts, accepted, judges⟩

theorem judges_exact {tree : IntExpr} {number : Int64}
    (exact : tree.exactValue? = some number.toInt) (gentle : ¬ tree.Steep) :
    tree.Judges (.ok number) :=
  ⟨accepted_of_exact exact gentle, exact⟩

/-- The value of an expression is exact, and an error is the first one. -/
theorem settles_computed (tree : IntExpr) : tree.Settles tree.computed := by
  induction tree with
  | literal value =>
      have whole : (literal value).Judges (.ok value) := judges_exact rfl id
      exact whole.settles [] rfl (by simp)
  | unary op operand induction =>
      cases ran : operand.computed with
      | error error =>
          rw [ran] at induction
          cases op <;> simp only [computed, ran, bind, Except.bind]
          all_goals exact FailFirst.append induction
      | ok value =>
          rw [ran] at induction
          obtain ⟨accepted, exact⟩ := induction
          cases op with
          | plus =>
              have whole : (unary .plus operand).Judges (.ok value) :=
                judges_exact exact id
              simp only [computed, ran]
              exact whole.settles operand.parts rfl accepted
          | minus =>
              simp only [computed, ran, bind, Except.bind]
              exact (judges_negate exact).settles operand.parts rfl accepted
  | binary op left right leftInduction rightInduction =>
      cases leftRan : left.computed with
      | error error =>
          rw [leftRan] at leftInduction
          simp only [computed, leftRan, bind, Except.bind]
          exact FailFirst.append leftInduction
      | ok first =>
          rw [leftRan] at leftInduction
          obtain ⟨leftAccepted, leftExact⟩ := leftInduction
          cases rightRan : right.computed with
          | error error =>
              rw [rightRan] at rightInduction
              simp only [computed, leftRan, rightRan, bind, Except.bind]
              exact (FailFirst.append rightInduction).prepend leftAccepted
          | ok second =>
              rw [rightRan] at rightInduction
              obtain ⟨rightAccepted, rightExact⟩ := rightInduction
              simp only [computed, leftRan, rightRan, bind, Except.bind]
              apply (judges_operate leftExact rightExact).settles
                (left.parts ++ right.parts) (by simp [parts])
              intro part member
              rcases List.mem_append.1 member with member | member
              · exact leftAccepted part member
              · exact rightAccepted part member

theorem computed_eq_ok_iff {tree : IntExpr} {number : Int64} :
    tree.computed = .ok number ↔ tree.Computes number := by
  have settles := tree.settles_computed
  constructor
  · intro ran
    rwa [ran] at settles
  · rintro ⟨accepted, exact⟩
    cases ran : tree.computed with
    | ok found =>
        rw [ran] at settles
        have same := settles.2.symm.trans exact
        rw [Option.some.injEq, Int64.toInt_inj] at same
        rw [same]
    | error error =>
        rw [ran] at settles
        exact absurd accepted settles.not_accepted

theorem computed_eq_error_iff {tree : IntExpr} {error : Error} :
    tree.computed = .error error ↔ FailFirst tree.parts error := by
  have settles := tree.settles_computed
  constructor
  · intro ran
    rwa [ran] at settles
  · intro first
    cases ran : tree.computed with
    | ok found =>
        rw [ran] at settles
        exact absurd settles.1 first.not_accepted
    | error other =>
        rw [ran] at settles
        rw [settles.unique first]

/-! ## Evaluation -/

section Evaluation

variable {σ N : Type} [Scalar N] (evaluator : Evaluator σ N)
  (overrides : Overrides N)

/-- An expression of integers that is not nested too deeply has a result just if
all its parts have exact values that fit, and no power is steep; the result is
the exact value.  An error is that of the first part for which this is not so.
Neither changes anything. -/
theorem evaluates_exactly (tree : IntExpr)
    (shallow : tree.height ≤ evaluator.limit) (pass : Pass σ N) :
    let ran := evaluator.evalExprAt overrides 0 tree.toExpr pass
    ((∃ number, ran = .ok (.plain (.int number)) pass) ∨
      ∃ error, ran = .error error pass) ∧
    (∀ number, ran = .ok (.plain (.int number)) pass ↔
      (∀ part ∈ tree.parts, part.Accepted) ∧
        tree.exactValue? = some number.toInt) ∧
    ∀ error, ran = .error error pass ↔
      ∃ before part after, tree.parts = before ++ part :: after ∧
        (∀ earlier ∈ before, earlier.Accepted) ∧ part.Fails error := by
  intro ran
  have runs : ran = Evaluation.ofExcept
      ((fun value => .plain (.int value)) <$> tree.computed) pass :=
    congrFun (evalExpr_toExpr evaluator overrides tree shallow) pass
  refine ⟨?_, ?_, ?_⟩
  · cases outcome : tree.computed with
    | ok number => exact .inl ⟨number, by rw [runs, outcome]; rfl⟩
    | error error => exact .inr ⟨error, by rw [runs, outcome]; rfl⟩
  · intro number
    refine Iff.trans ?_ computed_eq_ok_iff
    rw [runs, Evaluation.ofExcept_eq_ok_iff]
    cases tree.computed with
    | ok value => simp
    | error error => simp
  · intro error
    refine Iff.trans ?_ computed_eq_error_iff
    rw [runs, Evaluation.ofExcept_eq_error_iff]
    cases tree.computed with
    | ok value => simp
    | error found => simp

end Evaluation

/-- The negation of the least number fails before the division by zero that
follows it. -/
theorem evaluates_exactly_least :
    let least : IntExpr := .literal Int64.minValue
    let tree : IntExpr :=
      .binary .add (.unary .minus least) (.binary .divide (.literal 1) (.literal 0))
    let evaluator : Evaluator Unit Float := ⟨.empty, 3⟩
    let pass : Pass Unit Float := ⟨.empty, (), []⟩
    tree.height ≤ evaluator.limit ∧
      evaluator.evalExprAt .empty 0 tree.toExpr pass =
        .error (.integerOverflow "-(-9223372036854775808)") pass := by
  intro least tree evaluator pass
  have shallow : tree.height ≤ evaluator.limit := by decide
  have fails : (unary .minus least).Fails
      (.integerOverflow "-(-9223372036854775808)") :=
    .negationOverflow
      (show least.exactValue? = some (-9223372036854775808) from rfl) (by decide)
  refine ⟨shallow, ?_⟩
  apply ((evaluates_exactly evaluator .empty tree shallow pass).2.2 _).2
  refine ⟨[least], unary .minus least, _, rfl, ?_, fails⟩
  intro part member
  obtain rfl := List.mem_singleton.1 member
  exact accepted_of_exact rfl id

/-- A steep power is refused even where its exact value is as small as 1. -/
theorem not_evaluates_exactly_steep_power :
    let tree : IntExpr := .binary .power (.literal 1) (.literal 4294967296)
    let evaluator : Evaluator Unit Float := ⟨.empty, 2⟩
    let pass : Pass Unit Float := ⟨.empty, (), []⟩
    tree.height ≤ evaluator.limit ∧
      (∀ part ∈ tree.parts,
        ∃ value, part.exactValue? = some value ∧ Integer.fits value = true) ∧
      tree.exactValue? = some 1 ∧
      evaluator.evalExprAt .empty 0 tree.toExpr pass =
        .error (.integerOverflow "1 ^ 4294967296") pass := by
  have exact : (IntExpr.binary .power (.literal 1)
      (.literal 4294967296)).exactValue? = some 1 := by
    simp only [exactValue?, Option.bind_some, BinaryOp.exactResult?]
    rw [if_neg (by decide), show (1 : Int64).toInt = 1 from rfl, one_pow]
  refine ⟨by decide, ?_, exact, rfl⟩
  intro part member
  simp only [parts, List.cons_append, List.nil_append, List.mem_cons,
    List.not_mem_nil, or_false] at member
  rcases member with rfl | rfl | rfl
  · exact ⟨_, rfl, Integer.fits_toInt 1⟩
  · exact ⟨_, rfl, Integer.fits_toInt 4294967296⟩
  · exact ⟨1, exact, by decide⟩

end IntExpr

end DiagramEnergy
