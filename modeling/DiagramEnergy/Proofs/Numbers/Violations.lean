import DiagramEnergy.Proofs.Outcomes
import DiagramEnergy.Standard.Functions
import DiagramEnergy.Table.Lemmas
import Mathlib.Algebra.Order.Field.Basic
import Mathlib.Tactic.Positivity
import Mathlib.Tactic.Set

/-!
# Violations in exact numbers

Where the operations on numbers are those of an ordered field, a constraint
scores the square of a violation.  The score is never negative, and it is zero
just if the shapes are as the constraint wants them, which is said here in terms
of the field alone.
-/

namespace DiagramEnergy

variable {N K : Type}

/-! ## Shapes in the field -/

namespace Shape

def Measures (embed : N → K) (shape : Shape N) (property : String)
    (measure : K) : Prop :=
  ∃ number, shape.get? property = some (.float number) ∧ embed number = measure

variable {embed : N → K} {shape : Shape N}

theorem Measures.unique {property : String} {left right : K}
    (first : shape.Measures embed property left)
    (second : shape.Measures embed property right) : left = right := by
  obtain ⟨leftNumber, leftFound, rfl⟩ := first
  obtain ⟨rightNumber, rightFound, rfl⟩ := second
  rw [leftFound] at rightFound
  cases rightFound
  rfl

theorem Measures.has {property : String} {measure : K}
    (measures : shape.Measures embed property measure) :
    shape.has property = true := by
  obtain ⟨number, found, -⟩ := measures
  simp only [get?] at found
  simp [Shape.has, Table.contains, found]

theorem Measures.not_missing {property : String} {measure : K}
    (measures : shape.Measures embed property measure)
    (missing : shape.has property = false) : False := by
  rw [measures.has] at missing
  cases missing

variable [Field K]

variable (embed shape) in
/-- A shape lies at a point, or in the middle between two. -/
inductive HasCenter : K → K → Prop where
  | point {x y : K} :
      shape.Measures embed "x" x → shape.Measures embed "y" y →
      HasCenter x y
  | middle {startX endX startY endY : K} :
      shape.has "x" = false →
      shape.Measures embed "startX" startX →
      shape.Measures embed "endX" endX →
      shape.Measures embed "startY" startY →
      shape.Measures embed "endY" endY →
      HasCenter ((startX + endX) / 2) ((startY + endY) / 2)

theorem HasCenter.unique {leftX leftY rightX rightY : K}
    (left : shape.HasCenter embed leftX leftY)
    (right : shape.HasCenter embed rightX rightY) :
    leftX = rightX ∧ leftY = rightY := by
  cases left with
  | point x y =>
      cases right with
      | point otherX otherY => exact ⟨x.unique otherX, y.unique otherY⟩
      | middle missing => exact (x.not_missing missing).elim
  | middle missing startX endX startY endY =>
      cases right with
      | point x => exact (x.not_missing missing).elim
      | middle _ otherStartX otherEndX otherStartY otherEndY =>
          rw [startX.unique otherStartX, endX.unique otherEndX,
            startY.unique otherStartY, endY.unique otherEndY]
          exact ⟨rfl, rfl⟩

variable [LinearOrder K]

variable (embed shape) in
/-- The smallest and the largest side. -/
inductive HasSides : K → K → Prop where
  | radius {radius : K} : shape.Measures embed "r" radius →
      HasSides radius radius
  | box {width height : K} :
      shape.has "r" = false →
      shape.Measures embed "w" width → shape.Measures embed "h" height →
      HasSides (min width height) (max width height)

omit [Field K] in
theorem HasSides.unique {leftSmallest leftLargest rightSmallest rightLargest : K}
    (left : shape.HasSides embed leftSmallest leftLargest)
    (right : shape.HasSides embed rightSmallest rightLargest) :
    leftSmallest = rightSmallest ∧ leftLargest = rightLargest := by
  cases left with
  | radius radius =>
      cases right with
      | radius other => exact ⟨radius.unique other, radius.unique other⟩
      | box missing => exact (radius.not_missing missing).elim
  | box missing width height =>
      cases right with
      | radius radius => exact (radius.not_missing missing).elim
      | box _ otherWidth otherHeight =>
          rw [width.unique otherWidth, height.unique otherHeight]
          exact ⟨rfl, rfl⟩

omit [Field K] in
theorem HasSides.box_of_missing {smallest largest : K}
    (sides : shape.HasSides embed smallest largest)
    (missing : shape.has "r" = false) :
    ∃ width height, shape.Measures embed "w" width ∧
      shape.Measures embed "h" height ∧ largest = max width height := by
  cases sides with
  | radius radius => exact (radius.not_missing missing).elim
  | box _ width height => exact ⟨_, _, width, height, rfl⟩

variable (embed shape) in
/-- How far a shape reaches from its center; one without a size is a point. -/
inductive HasExtent : K → Prop where
  | radius {radius : K} : shape.Measures embed "r" radius → HasExtent radius
  | box {width height : K} :
      shape.has "r" = false →
      shape.Measures embed "w" width → shape.Measures embed "h" height →
      HasExtent (max width height / 2)
  | point : shape.has "r" = false →
      shape.has "w" = false ∨ shape.has "h" = false → HasExtent 0

theorem HasExtent.unique {left right : K}
    (first : shape.HasExtent embed left)
    (second : shape.HasExtent embed right) : left = right := by
  cases first with
  | radius radius =>
      cases second with
      | radius other => exact radius.unique other
      | box missing => exact (radius.not_missing missing).elim
      | point missing => exact (radius.not_missing missing).elim
  | box missing width height =>
      cases second with
      | radius radius => exact (radius.not_missing missing).elim
      | box _ otherWidth otherHeight =>
          rw [width.unique otherWidth, height.unique otherHeight]
      | point _ absent =>
          rcases absent with absent | absent
          · exact (width.not_missing absent).elim
          · exact (height.not_missing absent).elim
  | point missing absent =>
      cases second with
      | radius radius => exact (radius.not_missing missing).elim
      | box _ width height =>
          rcases absent with absent | absent
          · exact (width.not_missing absent).elim
          · exact (height.not_missing absent).elim
      | point => rfl

variable (embed) in
/-- The distance between the centers of two shapes. -/
def HasDistance (first second : Shape N) (distance : K) : Prop :=
  ∃ firstX firstY secondX secondY,
    first.HasCenter embed firstX firstY ∧
    second.HasCenter embed secondX secondY ∧
    0 ≤ distance ∧ distance ^ 2 = (firstX - secondX) ^ 2 + (firstY - secondY) ^ 2

theorem HasDistance.unique [IsStrictOrderedRing K] {first second : Shape N}
    {left right : K} (leftDistance : first.HasDistance embed second left)
    (rightDistance : first.HasDistance embed second right) : left = right := by
  obtain ⟨_, _, _, _, leftFirst, leftSecond, leftSign, leftSquare⟩ := leftDistance
  obtain ⟨_, _, _, _, rightFirst, rightSecond, rightSign, rightSquare⟩ :=
    rightDistance
  obtain ⟨rfl, rfl⟩ := leftFirst.unique rightFirst
  obtain ⟨rfl, rfl⟩ := leftSecond.unique rightSecond
  exact (sq_eq_sq₀ leftSign rightSign).1 (leftSquare.trans rightSquare.symm)

end Shape

variable [Field K] [LinearOrder K]

/-- What a constraint asks of its arguments. -/
inductive Satisfied (embed : N → K) : String → List (Evaluated N) → Prop where
  | minSize {shape : Shape N} {smallest largest : K} :
      shape.HasSides embed smallest largest → 20 ≤ smallest →
      Satisfied embed "minSize" [.shaped shape]
  | maxSize {shape : Shape N} {smallest largest : K} :
      shape.HasSides embed smallest largest → largest ≤ 250 →
      Satisfied embed "maxSize" [.shaped shape]
  | contains {outer inner : Shape N} {distance outerExtent innerExtent : K} :
      outer.HasDistance embed inner distance →
      outer.HasExtent embed outerExtent → inner.HasExtent embed innerExtent →
      distance + innerExtent ≤ outerExtent →
      Satisfied embed "contains" [.shaped outer, .shaped inner]
  | disjoint {first second : Shape N} {distance firstExtent secondExtent : K} :
      first.HasDistance embed second distance →
      first.HasExtent embed firstExtent →
      second.HasExtent embed secondExtent →
      firstExtent + secondExtent ≤ distance →
      Satisfied embed "disjoint" [.shaped first, .shaped second]
  | smallerThan {first second : Shape N} {firstExtent secondExtent : K} :
      first.HasExtent embed firstExtent →
      second.HasExtent embed secondExtent → firstExtent ≤ secondExtent →
      Satisfied embed "smallerThan" [.shaped first, .shaped second]

/-! ## When a constraint is satisfied -/

section Conditions

variable {embed : N → K} {shape first second : Shape N}

theorem satisfied_minSize_iff {smallest largest : K}
    (sides : shape.HasSides embed smallest largest) :
    Satisfied embed "minSize" [.shaped shape] ↔ 20 ≤ smallest := by
  constructor
  · intro satisfied
    generalize named : "minSize" = name at satisfied
    cases satisfied with
    | minSize others atLeast =>
        rw [(sides.unique others).1]
        exact atLeast
    | _ => exact absurd named (by decide)
  · exact .minSize sides

theorem satisfied_maxSize_iff {smallest largest : K}
    (sides : shape.HasSides embed smallest largest) :
    Satisfied embed "maxSize" [.shaped shape] ↔ largest ≤ 250 := by
  constructor
  · intro satisfied
    generalize named : "maxSize" = name at satisfied
    cases satisfied with
    | maxSize others atMost =>
        rw [(sides.unique others).2]
        exact atMost
    | _ => exact absurd named (by decide)
  · exact .maxSize sides

theorem satisfied_smallerThan_iff {firstExtent secondExtent : K}
    (left : first.HasExtent embed firstExtent)
    (right : second.HasExtent embed secondExtent) :
    Satisfied embed "smallerThan" [.shaped first, .shaped second] ↔
      firstExtent ≤ secondExtent := by
  constructor
  · intro satisfied
    generalize named : "smallerThan" = name at satisfied
    cases satisfied with
    | smallerThan otherLeft otherRight smaller =>
        rw [left.unique otherLeft, right.unique otherRight]
        exact smaller
    | _ => exact absurd named (by decide)
  · exact .smallerThan left right

variable [IsStrictOrderedRing K] {distance firstExtent secondExtent : K}

theorem satisfied_contains_iff
    (apart : first.HasDistance embed second distance)
    (outer : first.HasExtent embed firstExtent)
    (inner : second.HasExtent embed secondExtent) :
    Satisfied embed "contains" [.shaped first, .shaped second] ↔
      distance + secondExtent ≤ firstExtent := by
  constructor
  · intro satisfied
    generalize named : "contains" = name at satisfied
    cases satisfied with
    | contains otherApart otherOuter otherInner fits =>
        rw [apart.unique otherApart, outer.unique otherOuter,
          inner.unique otherInner]
        exact fits
    | _ => exact absurd named (by decide)
  · exact .contains apart outer inner

theorem satisfied_disjoint_iff
    (apart : first.HasDistance embed second distance)
    (left : first.HasExtent embed firstExtent)
    (right : second.HasExtent embed secondExtent) :
    Satisfied embed "disjoint" [.shaped first, .shaped second] ↔
      firstExtent + secondExtent ≤ distance := by
  constructor
  · intro satisfied
    generalize named : "disjoint" = name at satisfied
    cases satisfied with
    | disjoint otherApart otherLeft otherRight fits =>
        rw [apart.unique otherApart, left.unique otherLeft,
          right.unique otherRight]
        exact fits
    | _ => exact absurd named (by decide)
  · exact .disjoint apart left right

end Conditions

/-- The operations that constraints use are those of an ordered field.  Numbers
that are such a field themselves are embedded by the identity. -/
structure Scalar.IsExact [Scalar N] (embed : N → K) : Prop where
  injective : Function.Injective embed
  zero : embed Scalar.zero = 0
  half : embed (Scalar.ofFloat 0.5) = 1 / 2
  minSide : embed (Scalar.ofFloat 20) = 20
  maxSide : embed (Scalar.ofFloat 250) = 250
  add : ∀ left right, embed (left + right) = embed left + embed right
  sub : ∀ left right, embed (left - right) = embed left - embed right
  mul : ∀ left right, embed (left * right) = embed left * embed right
  max : ∀ left right,
    embed (Scalar.max left right) = Max.max (embed left) (embed right)
  min : ∀ left right,
    embed (Scalar.min left right) = Min.min (embed left) (embed right)
  sqrt : ∀ number, 0 ≤ embed number → 0 ≤ embed (Scalar.sqrt number) ∧
    embed (Scalar.sqrt number) * embed (Scalar.sqrt number) = embed number

/-! ## What the geometry of shapes computes -/

section Computed

variable [Scalar N] {embed : N → K} (exact : Scalar.IsExact embed)
  {shape : Shape N}

namespace Shape

omit [Field K] [LinearOrder K] [Scalar N] in
theorem measures_of_float {property : String} {number : N}
    (read : shape.float property = .ok number) :
    shape.Measures embed property (embed number) := by
  unfold float at read
  split at read
  case h_1 same =>
    cases read
    exact ⟨number, same, rfl⟩
  case h_2 => cases read
  case h_3 => cases read

include exact

theorem hasCenter_of_center {x y : N} (found : shape.center = .ok (x, y)) :
    shape.HasCenter embed (embed x) (embed y) := by
  unfold center at found
  split at found
  case isTrue =>
    simp only [Except.bind_eq_ok] at found
    obtain ⟨_, readX, _, readY, same⟩ := found
    cases same
    exact .point (measures_of_float readX) (measures_of_float readY)
  case isFalse missing =>
    simp only [Except.bind_eq_ok] at found
    obtain ⟨startX, readStartX, endX, readEndX, startY, readStartY, endY,
      readEndY, same⟩ := found
    cases same
    simp only [exact.mul, exact.add, exact.half, mul_one_div]
    exact .middle (by simpa using missing) (measures_of_float readStartX)
      (measures_of_float readEndX) (measures_of_float readStartY)
      (measures_of_float readEndY)

theorem hasSides_of_size {smallest largest : N}
    (found : shape.size = .ok (smallest, largest)) :
    shape.HasSides embed (embed smallest) (embed largest) := by
  unfold size at found
  split at found
  case isTrue =>
    simp only [Except.bind_eq_ok] at found
    obtain ⟨radius, read, same⟩ := found
    cases same
    exact .radius (measures_of_float read)
  case isFalse missing =>
    simp only [Except.bind_eq_ok] at found
    obtain ⟨width, readWidth, height, readHeight, same⟩ := found
    cases same
    rw [exact.min, exact.max]
    exact .box (by simpa using missing) (measures_of_float readWidth)
      (measures_of_float readHeight)

theorem hasExtent_of_extent {extent : N} (found : shape.extent = .ok extent) :
    shape.HasExtent embed (embed extent) := by
  unfold Shape.extent at found
  split at found
  case isTrue => exact .radius (measures_of_float found)
  case isFalse missing =>
    replace missing : shape.has "r" = false := by simpa using missing
    split at found
    case isTrue =>
      simp only [Except.bind_eq_ok] at found
      obtain ⟨⟨smallest, largest⟩, sized, same⟩ := found
      cases same
      rw [exact.mul, exact.half, mul_one_div]
      obtain ⟨_, _, width, height, largest⟩ :=
        (hasSides_of_size exact sized).box_of_missing missing
      rw [largest]
      exact .box missing width height
    case isFalse absent =>
      cases found
      rw [exact.zero]
      rw [Bool.and_eq_true, not_and_or, Bool.not_eq_true,
        Bool.not_eq_true] at absent
      exact .point missing absent

theorem hasDistance_of_squaredDistance [IsStrictOrderedRing K]
    {first second : Shape N} {square : N}
    (found : first.squaredDistance second = .ok square) :
    first.HasDistance embed second (embed (Scalar.sqrt square)) := by
  unfold squaredDistance at found
  simp only [Except.bind_eq_ok] at found
  obtain ⟨⟨firstX, firstY⟩, firstCenter, ⟨secondX, secondY⟩, secondCenter,
    same⟩ := found
  cases same
  set square := (firstX - secondX) * (firstX - secondX) +
    (firstY - secondY) * (firstY - secondY)
  have inField : embed square = (embed firstX - embed secondX) ^ 2 +
      (embed firstY - embed secondY) ^ 2 := by
    rw [exact.add, exact.mul, exact.mul, exact.sub, exact.sub, pow_two, pow_two]
  have notNegative : 0 ≤ embed square := by
    rw [inField]
    positivity
  obtain ⟨sign, root⟩ := exact.sqrt square notNegative
  refine ⟨_, _, _, _, hasCenter_of_center exact firstCenter,
    hasCenter_of_center exact secondCenter, sign, ?_⟩
  rw [pow_two, root, inField]

end Shape

/-! ## Scores -/

omit [Field K] [LinearOrder K] [Scalar N] in
theorem Signature.exists_shape_of_check {function : String}
    {arguments : List (Evaluated N)}
    (checked : Signature.check [.shape] function arguments = .ok ()) :
    ∃ shape, arguments = [.shaped shape] := by
  match arguments with
  | [.shaped shape] => exact ⟨shape, rfl⟩
  | [.plain _] => cases checked
  | [] => cases checked
  | _ :: _ :: _ => simp [check] at checked

omit [Field K] [LinearOrder K] [Scalar N] in
theorem Signature.exists_shapes_of_check {function : String}
    {arguments : List (Evaluated N)}
    (checked : Signature.check [.shape, .shape] function arguments = .ok ()) :
    ∃ first second, arguments = [.shaped first, .shaped second] := by
  match arguments with
  | [.shaped first, .shaped second] => exact ⟨first, second, rfl⟩
  | [.shaped _, .plain _] => cases checked
  | [.plain _, _] => cases checked
  | [] => cases checked
  | [_] => cases checked
  | _ :: _ :: _ :: _ => simp [check] at checked

/-- A score that is never negative, and zero just if the constraint of a name is
satisfied. -/
def Judges (embed : N → K) (name : String) (arguments : List (Evaluated N))
    (score : N) : Prop :=
  0 ≤ embed score ∧ (embed score = 0 ↔ Satisfied embed name arguments)

namespace Standard

variable [IsStrictOrderedRing K] {score : N}

include exact

theorem judges_penalty {name : String} {arguments : List (Evaluated N)}
    {violation : N}
    (decides : Satisfied embed name arguments ↔ embed violation ≤ 0) :
    Judges embed name arguments (penalty violation) := by
  have square : embed (penalty violation) = Max.max (embed violation) 0 ^ 2 := by
    rw [penalty, exact.mul, exact.max, exact.zero, pow_two]
  rw [Judges, decides, square, sq_eq_zero_iff, max_eq_right_iff]
  exact ⟨sq_nonneg _, Iff.rfl⟩

theorem judges_minSize (scored : minSize [.shaped shape] = .ok score) :
    Judges embed "minSize" [.shaped shape] score := by
  obtain ⟨_, ⟨⟩, scored⟩ := Except.bind_eq_ok.1 scored
  obtain ⟨_, sized, ⟨⟩⟩ := Except.bind_eq_ok.1 scored
  have sides := Shape.hasSides_of_size exact sized
  apply judges_penalty exact
  rw [exact.sub, minSide, exact.minSide, sub_nonpos]
  exact satisfied_minSize_iff sides

theorem judges_maxSize (scored : maxSize [.shaped shape] = .ok score) :
    Judges embed "maxSize" [.shaped shape] score := by
  obtain ⟨_, ⟨⟩, scored⟩ := Except.bind_eq_ok.1 scored
  obtain ⟨_, sized, ⟨⟩⟩ := Except.bind_eq_ok.1 scored
  have sides := Shape.hasSides_of_size exact sized
  apply judges_penalty exact
  rw [exact.sub, maxSide, exact.maxSide, sub_nonpos]
  exact satisfied_maxSize_iff sides

variable {first second : Shape N}

theorem judges_contains
    (scored : contains [.shaped first, .shaped second] = .ok score) :
    Judges embed "contains" [.shaped first, .shaped second] score := by
  obtain ⟨_, ⟨⟩, scored⟩ := Except.bind_eq_ok.1 scored
  obtain ⟨_, ⟨⟩, scored⟩ := Except.bind_eq_ok.1 scored
  obtain ⟨_, measured, scored⟩ := Except.bind_eq_ok.1 scored
  obtain ⟨_, innerFound, scored⟩ := Except.bind_eq_ok.1 scored
  obtain ⟨_, outerFound, ⟨⟩⟩ := Except.bind_eq_ok.1 scored
  have apart := Shape.hasDistance_of_squaredDistance exact measured
  have outer := Shape.hasExtent_of_extent exact outerFound
  have inner := Shape.hasExtent_of_extent exact innerFound
  apply judges_penalty exact
  rw [exact.sub, exact.add, sub_nonpos]
  exact satisfied_contains_iff apart outer inner

theorem judges_disjoint
    (scored : disjoint [.shaped first, .shaped second] = .ok score) :
    Judges embed "disjoint" [.shaped first, .shaped second] score := by
  obtain ⟨_, ⟨⟩, scored⟩ := Except.bind_eq_ok.1 scored
  obtain ⟨_, ⟨⟩, scored⟩ := Except.bind_eq_ok.1 scored
  obtain ⟨_, measured, scored⟩ := Except.bind_eq_ok.1 scored
  obtain ⟨_, leftFound, scored⟩ := Except.bind_eq_ok.1 scored
  obtain ⟨_, rightFound, ⟨⟩⟩ := Except.bind_eq_ok.1 scored
  have apart := Shape.hasDistance_of_squaredDistance exact measured
  have left := Shape.hasExtent_of_extent exact leftFound
  have right := Shape.hasExtent_of_extent exact rightFound
  apply judges_penalty exact
  rw [exact.sub, exact.add, sub_nonpos]
  exact satisfied_disjoint_iff apart left right

theorem judges_smallerThan
    (scored : smallerThan [.shaped first, .shaped second] = .ok score) :
    Judges embed "smallerThan" [.shaped first, .shaped second] score := by
  obtain ⟨_, ⟨⟩, scored⟩ := Except.bind_eq_ok.1 scored
  obtain ⟨_, ⟨⟩, scored⟩ := Except.bind_eq_ok.1 scored
  obtain ⟨_, leftFound, scored⟩ := Except.bind_eq_ok.1 scored
  obtain ⟨_, rightFound, ⟨⟩⟩ := Except.bind_eq_ok.1 scored
  have left := Shape.hasExtent_of_extent exact leftFound
  have right := Shape.hasExtent_of_extent exact rightFound
  apply judges_penalty exact
  rw [exact.sub, sub_nonpos]
  exact satisfied_smallerThan_iff left right

/-- Every score of a constraint judges its arguments. -/
theorem judges_constraints {name : String} {arguments : List (Evaluated N)}
    (scored : constraints.call name arguments = .ok score) :
    Judges embed name arguments score := by
  unfold ScoreTable.call at scored
  split at scored
  case h_1 => cases scored
  case h_2 signature function registered =>
    have listed := Table.mem_of_get?_ofList registered
    obtain ⟨⟨⟩, checked, scored⟩ := Except.bind_eq_ok.1 scored
    simp only [List.mem_cons, List.not_mem_nil, or_false, Prod.mk.injEq]
      at listed
    rcases listed with ⟨rfl, rfl, rfl⟩ | ⟨rfl, rfl, rfl⟩ | ⟨rfl, rfl, rfl⟩ |
      ⟨rfl, rfl, rfl⟩ | ⟨rfl, rfl, rfl⟩
    · obtain ⟨shape, rfl⟩ := Signature.exists_shape_of_check checked
      exact judges_minSize exact scored
    · obtain ⟨shape, rfl⟩ := Signature.exists_shape_of_check checked
      exact judges_maxSize exact scored
    · obtain ⟨outer, inner, rfl⟩ := Signature.exists_shapes_of_check checked
      exact judges_contains exact scored
    · obtain ⟨left, right, rfl⟩ := Signature.exists_shapes_of_check checked
      exact judges_disjoint exact scored
    · obtain ⟨left, right, rfl⟩ := Signature.exists_shapes_of_check checked
      exact judges_smallerThan exact scored

end Standard

end Computed

end DiagramEnergy
