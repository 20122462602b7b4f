import DiagramEnergy.Proofs.EnergyFailures
import DiagramEnergy.Standard.Functions

/-!
# How the standard functions fail

The standard functions complain about the number and the types of their
arguments and about nothing else.  An energy that uses no other functions
therefore fails only as evaluation does.
-/

namespace DiagramEnergy

open DiagramEnergy.Except (FailsWith)

variable {σ N : Type} {sort : Error → Prop}

theorem Except.FailsWith.mapM {α β : Type} {items : List α}
    {action : α → Except Error β}
    (each : ∀ item, FailsWith sort (action item)) :
    FailsWith sort (items.mapM action) := by
  induction items with
  | nil => trivial
  | cons item items induction =>
      rw [List.mapM_cons]
      exact (each item).bind fun _ => induction.bind fun _ => trivial

namespace Standard

variable (own : ∀ error : Error, error.IsEvaluation → sort error)
  (miscounted : ∀ context expected found, sort (.arity context expected found))

section Arguments

include own

theorem failsWith_toFloat (result : Evaluated N) (context : String) :
    FailsWith sort (result.toFloat context) := by
  unfold Evaluated.toFloat
  split
  · trivial
  · exact own _ trivial

theorem failsWith_toShape (result : Evaluated N) (context : String) :
    FailsWith sort (result.toShape context) := by
  unfold Evaluated.toShape
  split
  · trivial
  · exact own _ trivial

theorem failsWith_float (shape : Shape N) (property : String) :
    FailsWith sort (shape.float property) := by
  unfold Shape.float
  split
  · trivial
  · exact own _ trivial
  · exact own _ trivial

theorem failsWith_sum [Scalar N] (total : N)
    (arguments : List (Evaluated N)) : FailsWith sort (sum total arguments) := by
  induction arguments generalizing total with
  | nil => trivial
  | cons argument arguments induction =>
      exact (failsWith_toFloat own argument "average").bind
        fun operand => induction (total + operand)

include miscounted

theorem failsWith_floats (function : String) (count : Nat)
    (arguments : List (Evaluated N)) :
    FailsWith sort (floats function count arguments) := by
  unfold floats
  split
  · exact .mapM fun argument => failsWith_toFloat own argument function
  · exact miscounted _ _ _

theorem failsWith_oneFloat (function : String)
    (arguments : List (Evaluated N)) :
    FailsWith sort (oneFloat function arguments) := by
  apply (failsWith_floats own miscounted function 1 arguments).bind
  intro numbers
  split
  · trivial
  · exact miscounted _ _ _

theorem failsWith_twoFloats (function : String)
    (arguments : List (Evaluated N)) :
    FailsWith sort (twoFloats function arguments) := by
  apply (failsWith_floats own miscounted function 2 arguments).bind
  intro numbers
  split
  · trivial
  · exact miscounted _ _ _

theorem failsWith_oneShape (function : String)
    (arguments : List (Evaluated N)) :
    FailsWith sort (oneShape function arguments) := by
  unfold oneShape
  split
  · exact failsWith_toShape own _ function
  · exact miscounted _ _ _

omit own in
theorem failsWith_argumentAt (function : String)
    (arguments : List (Evaluated N)) (index : Nat) :
    FailsWith sort (argumentAt function arguments index) := by
  unfold argumentAt
  split
  · trivial
  · exact miscounted _ _ _

theorem failsWith_shapeAt (function : String)
    (arguments : List (Evaluated N)) (index : Nat) :
    FailsWith sort (shapeAt function arguments index) :=
  (failsWith_argumentAt miscounted function arguments index).bind
    fun argument => failsWith_toShape own argument function

theorem failsWith_floatAt (function : String)
    (arguments : List (Evaluated N)) (index : Nat) :
    FailsWith sort (floatAt function arguments index) :=
  (failsWith_argumentAt miscounted function arguments index).bind
    fun argument => failsWith_toFloat own argument function

end Arguments

variable [Scalar N]

section Shapes

include own

theorem failsWith_center (shape : Shape N) : FailsWith sort shape.center := by
  have coordinate := failsWith_float own shape
  unfold Shape.center
  split
  · exact (coordinate "x").bind fun _ => (coordinate "y").bind fun _ => trivial
  · exact (coordinate "startX").bind fun _ => (coordinate "endX").bind fun _ =>
      (coordinate "startY").bind fun _ => (coordinate "endY").bind fun _ => trivial

theorem failsWith_squaredDistance (first second : Shape N) :
    FailsWith sort (first.squaredDistance second) :=
  (failsWith_center own first).bind fun _ =>
    (failsWith_center own second).bind fun _ => trivial

theorem failsWith_size (shape : Shape N) : FailsWith sort shape.size := by
  have side := failsWith_float own shape
  unfold Shape.size
  split
  · exact (side "r").bind fun _ => trivial
  · exact (side "w").bind fun _ => (side "h").bind fun _ => trivial

theorem failsWith_extent (shape : Shape N) : FailsWith sort shape.extent := by
  unfold Shape.extent
  split
  · exact failsWith_float own shape "r"
  · split
    · exact (failsWith_size own shape).bind fun _ => trivial
    · trivial

end Shapes

include own miscounted

theorem failWith_computations :
    (computations : Computations σ N).FailWith sort := by
  intro name computation registered arguments world
  have oneFloat := fun name => failsWith_oneFloat own miscounted name arguments
  have twoFloats := fun name => failsWith_twoFloats own miscounted name arguments
  have oneShape := fun name => failsWith_oneShape own miscounted name arguments
  have listed := Table.mem_of_get?_ofList registered
  simp only [List.mem_cons, Prod.mk.injEq, List.not_mem_nil, or_false]
    at listed
  rcases listed with ⟨-, rfl⟩ | ⟨-, rfl⟩ | ⟨-, rfl⟩ | ⟨-, rfl⟩ | ⟨-, rfl⟩ |
    ⟨-, rfl⟩ | ⟨-, rfl⟩ | ⟨-, rfl⟩
  · exact (oneFloat "abs").bind fun _ => trivial
  · apply (oneFloat "sqrt").bind
    intro operand
    split
    · exact own _ trivial
    · trivial
  · exact (twoFloats "max").bind fun _ => trivial
  · exact (twoFloats "min").bind fun _ => trivial
  · change FailsWith sort (average arguments)
    unfold average
    split
    · exact miscounted _ _ _
    · exact (failsWith_sum own _ _).bind fun _ => trivial
  · exact (twoFloats "norm").bind fun _ => trivial
  · exact (oneShape "centerX").bind fun shape =>
      (failsWith_center own shape).bind fun _ => trivial
  · exact (oneShape "centerY").bind fun shape =>
      (failsWith_center own shape).bind fun _ => trivial

theorem failsWith_near (function : String) (arguments : List (Evaluated N)) :
    FailsWith sort (near function arguments) :=
  (failsWith_shapeAt own miscounted function arguments 0).bind fun first =>
    (failsWith_shapeAt own miscounted function arguments 1).bind fun second =>
      failsWith_squaredDistance own first second

theorem failWith_objectives :
    (objectives : ScoreTable N).FailWith sort := by
  intro name signature score registered arguments
  have near := fun function =>
    failsWith_near own miscounted function arguments
  have listed := Table.mem_of_get?_ofList registered
  simp only [List.mem_cons, Prod.mk.injEq, List.not_mem_nil, or_false]
    at listed
  rcases listed with ⟨-, -, rfl⟩ | ⟨-, -, rfl⟩ | ⟨-, -, rfl⟩ | ⟨-, -, rfl⟩
  · exact near "near"
  · exact (failsWith_shapeAt own miscounted _ arguments 0).bind fun shape =>
      (failsWith_center own shape).bind fun _ =>
        (failsWith_floatAt own miscounted _ arguments 1).bind fun _ =>
          (failsWith_floatAt own miscounted _ arguments 2).bind fun _ => trivial
  · exact (near "repel").bind fun _ => trivial
  · exact near "centerLabel"

theorem failWith_constraints :
    (constraints : ScoreTable N).FailWith sort := by
  intro name signature score registered arguments
  have shapeAt := fun function =>
    failsWith_shapeAt own miscounted function arguments
  have distance := failsWith_squaredDistance (N := N) own
  have extent := failsWith_extent (N := N) own
  have listed := Table.mem_of_get?_ofList registered
  simp only [List.mem_cons, Prod.mk.injEq, List.not_mem_nil, or_false]
    at listed
  rcases listed with ⟨-, -, rfl⟩ | ⟨-, -, rfl⟩ | ⟨-, -, rfl⟩ | ⟨-, -, rfl⟩ |
    ⟨-, -, rfl⟩
  · exact (shapeAt "minSize" 0).bind fun shape =>
      (failsWith_size own shape).bind fun _ => trivial
  · exact (shapeAt "maxSize" 0).bind fun shape =>
      (failsWith_size own shape).bind fun _ => trivial
  · exact (shapeAt "contains" 0).bind fun outer =>
      (shapeAt "contains" 1).bind fun inner =>
        (distance outer inner).bind fun _ => (extent inner).bind fun _ =>
          (extent outer).bind fun _ => trivial
  · exact (shapeAt "disjoint" 0).bind fun first =>
      (shapeAt "disjoint" 1).bind fun second =>
        (distance first second).bind fun _ => (extent first).bind fun _ =>
          (extent second).bind fun _ => trivial
  · exact (shapeAt "smallerThan" 0).bind fun first =>
      (shapeAt "smallerThan" 1).bind fun second =>
        (extent first).bind fun _ => (extent second).bind fun _ => trivial

theorem failWith_registries :
    (registries : Registries σ N).FailWith sort where
  computations := failWith_computations own miscounted
  scores role := by
    cases role with
    | objective => exact failWith_objectives own miscounted
    | constraint => exact failWith_constraints own miscounted

end Standard

end DiagramEnergy
