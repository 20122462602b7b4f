import DiagramEnergy.Proofs.Numbers.Energies
import DiagramEnergy.Proofs.Numbers.Functions
import DiagramEnergy.Proofs.Problem.DefaultCalls

/-!
# Homomorphisms of numbers

A map of numbers that carries all operations commutes with every evaluation and
with the terms of every energy: all decisions are made on plain values, and the
errors speak of plain values only.
-/

namespace DiagramEnergy

variable {σ τ M N : Type} [Scalar M] [Scalar N] {change : N → M}

theorem Mirrors.eq {α β : Type} {convert : α → β} {first : Except Error α}
    {second : Except Error β}
    (mirrors : Mirrors (fun _ => False) convert first second) :
    second = convert <$> first :=
  mirrors.eq_of_not_excused fun _ _ excuse => excuse

omit [Scalar M] [Scalar N] in
theorem MirrorsRun.eq {α β : Type} {convert : α → β} {first : Descent σ N α}
    {second : Descent σ M β}
    (mirrors : MirrorsRun (fun _ => False) change convert first second)
    (memory : Memory σ N) :
    second.run (memory.mapFloat change) =
      (convert <$> (first.run memory).1,
        (first.run memory).2.mapFloat change) := by
  rcases mirrors memory with same | ⟨_, _, excuse⟩
  · exact same
  · cases excuse

/-- With the standard functions, a homomorphism of numbers commutes with the
terms of every energy that is lifted to both, and with the evaluation of every
expression, its errors and the store that it leaves included. -/
theorem Scalar.IsHom.commutes (isHom : Scalar.IsHom change) :
    (∀ (energy : Energy τ Float) (penaltyWeight : N) (values : List N)
      (run : RunState σ),
      ((energy.lift Standard.registries : Energy σ M).terms
        (change penaltyWeight) (values.map change)).outcome run =
        EnergyTerms.mapFloat change <$>
          ((energy.lift Standard.registries : Energy σ N).terms penaltyWeight
            values).outcome run) ∧
    ∀ (limit depth : Nat) (expr : Expr) (overrides : Overrides N)
      (pass : Pass σ N),
      let ended := Evaluation.forget ((⟨Standard.computations, limit⟩ :
        Evaluator σ N).evalExprAt overrides depth expr pass)
      Evaluation.forget ((⟨Standard.computations, limit⟩ :
        Evaluator σ M).evalExprAt (overrides.mapFloat change) depth expr
          (pass.mapFloat change)) =
        (Evaluated.mapFloat change <$> ended.1, ended.2.mapFloat change) := by
  constructor
  · intro energy penaltyWeight values run
    have registries : Registries.Mirrors (fun _ => False) change
        (Standard.registries : Registries σ N) Standard.registries :=
      Standard.mirrors_registries isHom _
    have lifted := Energy.mirrors_lift isHom.ofFloat registries energy
    exact (lifted.terms isHom.toCarries penaltyWeight values run).eq
  · intro limit depth expr overrides pass ended
    let first : Evaluator σ N := ⟨Standard.computations, limit⟩
    let second : Evaluator σ M := ⟨Standard.computations, limit⟩
    have computations : Computations.Mirrors (fun _ => False) change
        first.computations second.computations :=
      Standard.mirrors_computations isHom _
    have descent := Evaluator.mirrors_descend isHom.toCarries computations rfl
      overrides true (limit - depth)
    simp only [ended, Evaluator.forget_evalExprAt]
    exact (descent.1 expr).eq pass.memory

/-! ## Counted floats -/

/-- A float with the number of uses that were made of inputs. -/
structure Counted where
  value : Float
  uses : Nat
  deriving DecidableEq

namespace Counted

instance : Scalar Counted where
  add left right := ⟨left.value + right.value, left.uses + right.uses⟩
  sub left right := ⟨left.value - right.value, left.uses + right.uses⟩
  mul left right := ⟨left.value * right.value, left.uses + right.uses⟩
  div left right := ⟨left.value / right.value, left.uses + right.uses⟩
  neg number := ⟨-number.value, number.uses⟩
  ofFloat number := ⟨number, 0⟩
  value := value
  pow base exponent :=
    ⟨Float.pow base.value exponent.value, base.uses + exponent.uses⟩
  sqrt number := ⟨Float.sqrt number.value, number.uses⟩
  abs number := ⟨Float.abs number.value, number.uses⟩

/-- Counts every use twice. -/
def double (number : Counted) : Counted := ⟨number.value, 2 * number.uses⟩

theorem isHom_double : Scalar.IsHom double where
  ofFloat _ := rfl
  zero := rfl
  add left right := congrArg (mk _) (Nat.mul_add 2 left.uses right.uses)
  sub left right := congrArg (mk _) (Nat.mul_add 2 left.uses right.uses)
  mul left right := congrArg (mk _) (Nat.mul_add 2 left.uses right.uses)
  div left right := congrArg (mk _) (Nat.mul_add 2 left.uses right.uses)
  neg _ := rfl
  pow base exponent := congrArg (mk _) (Nat.mul_add 2 base.uses exponent.uses)
  sqrt _ := rfl
  abs _ := rfl
  value _ := rfl
  isZero _ := rfl
  max left right := apply_ite double (left.value ≥ right.value) left right
  min left right := apply_ite double (left.value ≤ right.value) left right

end Counted

/-- The energy of one disc that has to be large enough. -/
def Energy.disc : Energy Unit Float where
  store := Problem.sampledDiscStore
  objectives := []
  constraints := [Problem.discCall]
  varyingPaths := [.property "A" "disc" "r"]
  registries := Standard.registries
  constraintWeight := 1
  recursionLimit := 9

/-- The missing radius is used twice in its square. -/
theorem commutes_disc :
    Scalar.IsHom Counted.double ∧
    ((Energy.disc.lift Standard.registries : Energy Unit Counted).terms
      ⟨1, 0⟩ [⟨2, 1⟩]).outcome ⟨(), []⟩ = .ok ⟨⟨0, 0⟩, ⟨324, 2⟩⟩ ∧
    ((Energy.disc.lift Standard.registries : Energy Unit Counted).terms
      ⟨1, 0⟩ [⟨2, 2⟩]).outcome ⟨(), []⟩ = .ok ⟨⟨0, 0⟩, ⟨324, 4⟩⟩ := by
  have once : ((Energy.disc.lift Standard.registries :
      Energy Unit Counted).terms ⟨1, 0⟩ [⟨2, 1⟩]).outcome ⟨(), []⟩ =
        .ok ⟨⟨0, 0⟩, ⟨324, 2⟩⟩ := by
    decide +kernel
  refine ⟨Counted.isHom_double, once, ?_⟩
  have twice := (Scalar.IsHom.commutes Counted.isHom_double).1 Energy.disc
    ⟨1, 0⟩ [⟨2, 1⟩] (⟨(), []⟩ : RunState Unit)
  rw [once] at twice
  exact twice

end DiagramEnergy
