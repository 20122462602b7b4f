import DiagramEnergy.Proofs.Numbers.Homomorphisms
import DiagramEnergy.Proofs.Numbers.Settled

/-!
# Numbers that extend floats

A number may carry more than a float and take the larger and the smaller of two
numbers by comparing plain values.  Energies over such numbers have the plain
values of the energies over floats as long as all larger and smaller values are
taken of settled pairs.  The strict standard functions tell whether they are.
-/

namespace DiagramEnergy

variable {σ M N : Type}

/-! ## Strict functions -/

def Shape.sidesSettled (shape : Shape Float) : Bool :=
  shape.has "r" ||
    match shape.float "w", shape.float "h" with
    | .ok width, .ok height => decide (Scalar.Settled width height)
    | _, _ => true

def Evaluated.sidesSettled : Evaluated Float → Bool
  | .plain _ => true
  | .shaped shape => shape.sidesSettled

namespace Standard

/-- Takes one of two floats if they are settled. -/
def strictTake (failure : Error) (function : String)
    (take : Float → Float → Float) (arguments : List (Evaluated Float)) :
    Except Error (Evaluated Float) := do
  let (first, second) ← twoFloats function arguments
  if Scalar.Settled first second then return number (take first second)
  else .error failure

/-- Scores arguments if the sides of all shapes are settled. -/
def strictScore (failure : Error) (score : Score Float) : Score Float :=
  fun arguments => do
    let result ← score arguments
    if arguments.all Evaluated.sidesSettled then return result
    else .error failure

def strictComputations (failure : Error) : Computations σ Float :=
  .ofList [("abs", .ofFunction abs), ("sqrt", .ofFunction sqrt),
    ("max", .ofFunction (strictTake failure "max" Scalar.max)),
    ("min", .ofFunction (strictTake failure "min" Scalar.min)),
    ("average", .ofFunction average), ("norm", .ofFunction norm),
    ("centerX", .ofFunction centerX), ("centerY", .ofFunction centerY)]

def strictConstraints (failure : Error) : ScoreTable Float where
  role := .constraint
  functions := constraints.functions.map fun registered =>
    (registered.1, strictScore failure registered.2)

/-- The standard functions over floats, failing instead of taking the larger or
the smaller one of unsettled floats. -/
def strict (failure : Error) : Registries σ Float :=
  ⟨strictComputations failure, objectives, strictConstraints failure⟩

end Standard

/-! ## Carrying settled pairs -/

/-- A change into floats that carries the larger and the smaller of two numbers
if their images are settled, and every penalty. -/
structure Scalar.CarriesSettled [Scalar N] (change : N → Float) : Prop
    extends Carries change where
  max : ∀ left right, Settled (change left) (change right) →
    change (max left right) = max (change left) (change right)
  min : ∀ left right, Settled (change left) (change right) →
    change (min left right) = min (change left) (change right)
  penalty : ∀ violation,
    change (Standard.penalty violation) = Standard.penalty (change violation)

theorem Scalar.IsHom.toCarriesSettled [Scalar N] {change : N → Float}
    (isHom : Scalar.IsHom change) : Scalar.CarriesSettled change where
  toCarries := isHom.toCarries
  max left right _ := isHom.max left right
  min left right _ := isHom.min left right
  penalty := Standard.penalty_map isHom

theorem Scalar.isHom_id [Scalar N] : Scalar.IsHom (id : N → N) where
  ofFloat _ := rfl
  zero := rfl
  add _ _ := rfl
  sub _ _ := rfl
  mul _ _ := rfl
  div _ _ := rfl
  neg _ := rfl
  pow _ _ := rfl
  sqrt _ := rfl
  abs _ := rfl
  value _ := rfl
  isZero _ := rfl
  max _ _ := rfl
  min _ _ := rfl

/-- A number without any contents.  Changing all numbers into it leaves of a
score whether it fails, and how. -/
structure Blank where

instance : Scalar Blank where
  add _ _ := {}
  sub _ _ := {}
  mul _ _ := {}
  div _ _ := {}
  neg _ := {}
  ofFloat _ := {}
  value _ := 0
  pow _ _ := {}
  sqrt _ := {}
  abs _ := {}

namespace Blank

def of (_ : N) : Blank := {}

variable [Scalar N]

theorem carriesOperations : Scalar.CarriesOperations (of : N → Blank) where
  ofFloat _ := rfl
  zero := rfl
  add _ _ := rfl
  sub _ _ := rfl
  mul _ _ := rfl
  div _ _ := rfl
  neg _ := rfl
  pow _ _ := rfl
  sqrt _ := rfl
  abs _ := rfl

theorem sidesCarried (arguments : List (Evaluated N)) :
    Standard.SidesCarried of arguments :=
  fun _ _ => ⟨fun _ _ _ _ _ => rfl, fun _ _ _ _ _ => rfl⟩

/-- Constraints fail alike over all numbers. -/
theorem carried_constraints :
    Table.Related (fun registered other =>
      other.1 = registered.1 ∧ ∀ arguments,
        other.2 (arguments.map (Evaluated.mapFloat of)) =
          of <$> registered.2 arguments)
      (Standard.constraints : ScoreTable N).functions
      (Standard.constraints : ScoreTable Blank).functions := by
  have carried := Standard.carried_constraints
    (carriesOperations (N := N)) (fun _ => rfl)
  apply carried.imp
  rintro registered other ⟨sameSignature, score⟩
  exact ⟨sameSignature, fun arguments =>
    score arguments (sidesCarried arguments)⟩

end Blank

/-! ## Mirroring -/

section Mirroring

variable [Scalar N] {change : N → Float}
  (carries : Scalar.CarriesSettled change) (failure : Error)

include carries

theorem Shape.SidesCarried.of_sidesSettled {shape : Shape N}
    (settled : (shape.mapFloat change).sidesSettled = true) :
    shape.SidesCarried change := by
  have pair : ∀ width height, shape.float "w" = .ok width →
      shape.float "h" = .ok height → shape.has "r" = false →
      Scalar.Settled (change width) (change height) := by
    intro width height wide high angular
    simp only [sidesSettled, has_mapFloat, angular, float_mapFloat, wide, high]
      at settled
    exact of_decide_eq_true settled
  constructor
  · intro width height wide high angular
    exact carries.max width height (pair width height wide high angular)
  · intro width height wide high angular
    exact carries.min width height (pair width height wide high angular)

namespace Standard

theorem SidesCarried.of_sidesSettled {arguments : List (Evaluated N)}
    (settled : (arguments.map (Evaluated.mapFloat change)).all
      Evaluated.sidesSettled = true) :
    SidesCarried change arguments := by
  intro shape member
  apply Shape.SidesCarried.of_sidesSettled carries
  exact List.all_eq_true.1 settled _
    (List.mem_map_of_mem (f := Evaluated.mapFloat change) member)

omit carries [Scalar N] in
theorem mirrors_strictTake {function : String} {take : N → N → N}
    {takeFloat : Float → Float → Float}
    (carried : ∀ left right, Scalar.Settled (change left) (change right) →
      change (take left right) = takeFloat (change left) (change right))
    (arguments : List (Evaluated N)) :
    Mirrors (· = failure) (Evaluated.mapFloat change)
      (do
        let (first, second) ← twoFloats function arguments
        return number (take first second))
      (strictTake failure function takeFloat
        (arguments.map (Evaluated.mapFloat change))) := by
  unfold strictTake
  rw [twoFloats_map]
  have pairs : Mirrors (· = failure) (Prod.map change change)
      (twoFloats function arguments)
      (Prod.map change change <$> twoFloats function arguments) := .of_eq rfl
  apply pairs.bind
  rintro ⟨left, right⟩ -
  by_cases settled : Scalar.Settled (change left) (change right)
  · simp only [Prod.map, if_pos settled, ← carried left right settled]
    exact .ok
  · simp only [Prod.map, if_neg settled]
    exact .inr ⟨failure, rfl, rfl⟩

theorem mirrors_strictComputations :
    Computations.Mirrors (· = failure) change
      (computations : Computations σ N) (strictComputations failure) :=
  mirrors_computations_with carries.toCarries
    (Computation.mirrors_ofFunction (mirrors_strictTake failure carries.max))
    (Computation.mirrors_ofFunction (mirrors_strictTake failure carries.min))

theorem mirrors_strictScore {score : Score N} {other : Score Float}
    (carried : ∀ arguments, SidesCarried change arguments →
      other (arguments.map (Evaluated.mapFloat change)) =
        change <$> score arguments)
    (failing : ∀ arguments,
      Blank.of <$> other (arguments.map (Evaluated.mapFloat change)) =
        Blank.of <$> score arguments) :
    Score.Mirrors (· = failure) change score (strictScore failure other) := by
  intro arguments
  unfold strictScore
  by_cases settled : (arguments.map (Evaluated.mapFloat change)).all
      Evaluated.sidesSettled = true
  · rw [carried arguments (.of_sidesSettled carries settled), settled]
    cases score arguments with
    | error error => exact .error error
    | ok result => exact .ok
  -- A score over unsettled sides is withheld, but an error comes first.
  · have alike := failing arguments
    cases scored : other (arguments.map (Evaluated.mapFloat change)) with
    | ok result => exact .inr ⟨failure, if_neg settled, rfl⟩
    | error error =>
        rw [scored] at alike
        cases original : score arguments with
        | ok result =>
            rw [original] at alike
            cases alike
        | error other =>
            rw [original] at alike
            cases alike
            exact .error error

theorem mirrors_strictConstraints :
    ScoreTable.Mirrors (· = failure) change constraints
      (strictConstraints failure) := by
  refine ⟨rfl, fun name => ?_⟩
  have carried := carried_constraints carries.toCarriesOperations
    carries.penalty name
  have first := Blank.carried_constraints (N := N) name
  have second := Blank.carried_constraints (N := Float) name
  unfold strictConstraints
  rw [Table.get?_map]
  generalize (constraints : ScoreTable N).functions.get? name = original
    at carried first ⊢
  generalize (constraints : ScoreTable Float).functions.get? name = float
    at carried second ⊢
  generalize (constraints : ScoreTable Blank).functions.get? name = blank
    at first second
  cases carried with
  | none => exact .none
  | some scores =>
      cases first with
      | some firstScores =>
          cases second with
          | some secondScores =>
              have alike := mirrors_strictScore carries failure scores.2
              refine .some ⟨scores.1, alike fun arguments => ?_⟩
              rw [← secondScores.2, ← firstScores.2, List.map_map]
              simp only [Function.comp_def, Evaluated.mapFloat_mapFloat]

theorem mirrors_strict :
    Registries.Mirrors (· = failure) change (registries : Registries σ N)
      (strict failure) :=
  ⟨mirrors_strictComputations carries failure,
    mirrors_objectives carries.toCarries _,
    mirrors_strictConstraints carries failure⟩

end Standard

/-- The lift of an energy mirrors its strict form. -/
theorem Energy.mirrors_strict {τ : Type} (energy : Energy τ Float) :
    Energy.Mirrors (· = failure) change
      (energy.lift Standard.registries : Energy σ N)
      (energy.lift (Standard.strict failure)) := by
  have registries : Registries.Mirrors (· = failure) change
      (Standard.registries : Registries σ N) (Standard.strict failure) :=
    Standard.mirrors_strict carries failure
  exact Energy.mirrors_lift carries.ofFloat registries energy

end Mirroring

theorem Energy.lift_self {energy : Energy σ Float}
    {registries : Registries σ Float} (same : energy.registries = registries) :
    energy.lift registries = energy := by
  have store : (energy.store.lift : Store Float) = energy.store :=
    energy.store.mapFloat_id
  rw [Energy.lift, store, ← same]

/-! ## Plain values -/

namespace Scalar

/-- The plain value is carried by all operations, and the larger and the smaller
of two numbers are taken by comparing plain values. -/
structure ExtendsFloat (N : Type) [Scalar N] : Prop
    extends Carries (value : N → Float) where
  max : ∀ left right : N, Scalar.max left right =
    if Scalar.value left ≥ Scalar.value right then left else right
  min : ∀ left right : N, Scalar.min left right =
    if Scalar.value left ≤ Scalar.value right then left else right

namespace ExtendsFloat

variable [Scalar N] (extension : ExtendsFloat N)

include extension

theorem value_max (left right : N) : Scalar.value (Scalar.max left right) =
    if Scalar.value left ≥ Scalar.value right then Scalar.value left
    else Scalar.value right := by
  rw [extension.max]
  exact apply_ite (Scalar.value : N → Float) _ _ _

theorem value_min (left right : N) : Scalar.value (Scalar.min left right) =
    if Scalar.value left ≤ Scalar.value right then Scalar.value left
    else Scalar.value right := by
  rw [extension.min]
  exact apply_ite (Scalar.value : N → Float) _ _ _

/-- The two zeros have the same square, so that penalties are carried even where
the excess is not. -/
theorem value_penalty (violation : N) :
    Scalar.value (Standard.penalty violation) =
      Standard.penalty (Scalar.value violation) := by
  have zero : Scalar.value (Scalar.zero : N) = (0 : Float) := extension.zero
  have excess : Scalar.value (Scalar.max violation Scalar.zero) =
      if Scalar.value violation ≥ 0 then Scalar.value violation else 0 := by
    rw [extension.value_max, zero]
  have square : Scalar.value (Standard.penalty violation) =
      Scalar.value (Scalar.max violation Scalar.zero) *
        Scalar.value (Scalar.max violation Scalar.zero) :=
    extension.mul _ _
  rw [square, excess]
  -- Against zero, only the other zero is not settled.
  by_cases negative : Scalar.value violation = -0
  · rw [negative]
    decide +kernel
  · rw [take_max_iff_settled.2 (settled_zero negative)]
    rfl

theorem carriesSettled : CarriesSettled (Scalar.value : N → Float) where
  toCarries := extension.toCarries
  max left right settled :=
    (extension.value_max left right).trans (take_max_iff_settled.2 settled)
  min left right settled :=
    (extension.value_min left right).trans (take_min_iff_settled.2 settled)
  penalty := extension.value_penalty

/-- Larger and smaller numbers have the larger and the smaller plain values for
settled pairs only.  An energy has the plain value of its lift, and fails as its
lift does, unless the strict energy fails on its own account. -/
theorem evaluates_as_float :
    (∀ left right : N,
      (Scalar.value (Scalar.max left right) =
          Scalar.max (Scalar.value left) (Scalar.value right) ↔
        Settled (Scalar.value left) (Scalar.value right)) ∧
      (Scalar.value (Scalar.min left right) =
          Scalar.min (Scalar.value left) (Scalar.value right) ↔
        Settled (Scalar.value left) (Scalar.value right))) ∧
    ∀ (energy : Energy σ Float) (failure : Error) (penaltyWeight : N)
      (values : List N) (run : RunState σ),
      energy.registries = Standard.registries →
      ((energy.lift (Standard.strict failure) : Energy σ Float).evaluate
        (Scalar.value penaltyWeight) (values.map Scalar.value)).outcome run ≠
          .error failure →
      (energy.evaluate (Scalar.value penaltyWeight)
        (values.map Scalar.value)).outcome run =
          Scalar.value <$> ((energy.lift Standard.registries :
            Energy σ N).evaluate penaltyWeight values).outcome run := by
  constructor
  · intro left right
    rw [extension.value_max, extension.value_min]
    exact ⟨take_max_iff_settled, take_min_iff_settled⟩
  · intro energy failure penaltyWeight values run standard settled
    have serious : ∀ error, ((energy.lift (Standard.strict failure) :
        Energy σ Float).evaluate (Scalar.value penaltyWeight)
          (values.map Scalar.value)).outcome run = .error error →
        ¬ error = failure := by
      rintro error failed rfl
      exact settled failed
    have lifted := (Energy.mirrors_strict (σ := σ) extension.carriesSettled
      failure energy).evaluate extension.toCarries penaltyWeight values run
    have plain := (Energy.mirrors_strict (σ := σ)
      Scalar.isHom_id.toCarriesSettled failure energy).evaluate
        Scalar.isHom_id.toCarries (Scalar.value penaltyWeight)
        (values.map Scalar.value) run
    rw [Energy.lift_self standard, List.map_id] at plain
    have same := plain.eq_of_not_excused serious
    rw [id_map] at same
    exact same.symm.trans (lifted.eq_of_not_excused serious)

end ExtendsFloat

end Scalar

/-! ## A box whose height is no number -/

theorem Counted.extendsFloat : Scalar.ExtendsFloat Counted where
  ofFloat _ := rfl
  zero := rfl
  add _ _ := rfl
  sub _ _ := rfl
  mul _ _ := rfl
  div _ _ := rfl
  neg _ := rfl
  pow _ _ := rfl
  sqrt _ := rfl
  abs _ := rfl
  value _ := rfl
  isZero _ := rfl
  max _ _ := rfl
  min _ _ := rfl

/-- Boxes with a scale, whose square overflows for the sampled one. -/
def Catalog.boxes : Catalog :=
  ⟨Table.empty.insert "Box" {
    properties := Table.empty.insert "s"
      { type := .float, sampler := .fixed (.float 1e200) }
    defaultConstraints := ["minSize"] }⟩

/-- A box as high as the square of its scale less itself, which is zero unless
the square overflows. -/
def Store.box : Store Float :=
  let scale := .reference (.property "A" "box" "s")
  let square := .binary .multiply scale scale
  let height := .binary .subtract square square
  (Store.empty.declare "A").bind "A" "box"
    (.shape "Box" ((Table.empty.insert "w" (.concrete (.float 10))).insert "h"
      (.symbolic height)))

def Problem.assembleBox : Run Unit (Problem Unit) :=
  assemble none Store.box Catalog.boxes Standard.registries {}

/-- The smaller side of a box with an overflowing scale is its width for floats,
and no number for numbers that extend floats. -/
theorem not_evaluates_as_float_box :
    Scalar.ExtendsFloat Counted ∧
    Run.outcome (do
      let problem ← Problem.assembleBox
      problem.energy.evaluate 1 [1e200]) ⟨(), []⟩ = .ok 1e6 ∧
    Run.outcome (do
      let problem ← Problem.assembleBox
      (problem.energy.lift Standard.registries :
        Energy Unit Counted).evaluate ⟨1, 0⟩ [⟨1e200, 1⟩]) ⟨(), []⟩ =
          .ok ⟨0, 0⟩ ∧
    Run.outcome (do
      let problem ← Problem.assembleBox
      (problem.energy.lift Standard.registries :
        Energy Unit Dual).evaluate ⟨1, 0⟩ [⟨1e200, 1⟩]) ⟨(), []⟩ =
          .ok ⟨0, 0⟩ := by
  exact ⟨Counted.extendsFloat, by decide +kernel⟩

def Energy.box : Energy Unit Float where
  store := Store.box
  objectives := []
  constraints := [⟨.constraint, "minSize", [.reference (.field "A" "box")]⟩]
  varyingPaths := [.property "A" "box" "s"]
  registries := Standard.registries
  constraintWeight := 10000
  recursionLimit := 1000

/-- A width of ten and a height of zero are settled. -/
theorem evaluates_as_float_box :
    Scalar.ExtendsFloat Counted ∧
    ((Energy.box.lift (Standard.strict .nothingVaries) :
      Energy Unit Float).evaluate 1 [3]).outcome ⟨(), []⟩ = .ok 4e6 ∧
    (Energy.box.evaluate 1 [3]).outcome ⟨(), []⟩ =
      Scalar.value <$> ((Energy.box.lift Standard.registries :
        Energy Unit Counted).evaluate ⟨1, 0⟩ [⟨3, 1⟩]).outcome ⟨(), []⟩ := by
  have settled : ((Energy.box.lift (Standard.strict .nothingVaries) :
      Energy Unit Float).evaluate 1 [3]).outcome ⟨(), []⟩ = .ok 4e6 := by
    decide +kernel
  have serious : ((Energy.box.lift (Standard.strict .nothingVaries) :
      Energy Unit Float).evaluate 1 [3]).outcome ⟨(), []⟩ ≠
        .error .nothingVaries := by
    simp only [settled, ne_eq, reduceCtorEq, not_false_eq_true]
  exact ⟨Counted.extendsFloat, settled,
    (Scalar.ExtendsFloat.evaluates_as_float Counted.extendsFloat).2 Energy.box
      .nothingVaries ⟨1, 0⟩ [⟨3, 1⟩] ⟨(), []⟩ rfl serious⟩

end DiagramEnergy
