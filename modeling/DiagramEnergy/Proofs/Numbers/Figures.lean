import Mathlib

/-!
# Discs and boxes in the plane

The plane is that of the complex numbers.  A figure is a disc or an upright box,
and its reach is the radius of the disc or half of the longer side of the box.
All points of a disc lie within its reach, but a box that is neither without
width nor without height has its corners farther away.  Whoever compares reaches
with distances therefore learns the truth about discs, and about boxes only
sometimes: for which figures is said here exactly.

Main statements: `region_subset_reach_iff`, `keepApart_iff`, `inside_disc_iff`.
-/

namespace DiagramEnergy

inductive Figure where
  | disc (radius : NNReal)
  | box (width height : NNReal)

namespace Figure

noncomputable def half (side : NNReal) : ℝ := side / (2 : ℕ)

theorem half_eq (side : NNReal) : half side = side / 2 := by
  rw [half, Nat.cast_ofNat]

/-- The points of a figure that lies around a center.  A box is the product of an
interval around the abscissa and one around the ordinate. -/
def region (center : ℂ) : Figure → Set ℂ
  | disc radius => Metric.closedBall center radius
  | box width height =>
      Metric.closedBall center.re (half width) ×ℂ
        Metric.closedBall center.im (half height)

noncomputable def reach : Figure → ℝ
  | disc radius => radius
  | box width height => half (max width height)

/-- Whether a figure is a disc or has no more than one dimension. -/
def IsRound : Figure → Prop
  | disc _ => True
  | box width height => width = 0 ∨ height = 0

/-- Whether a figure has no inner points. -/
def IsThin : Figure → Prop
  | disc radius => radius = 0
  | box width height => width = 0 ∨ height = 0

/-- Whether two figures of the same sort that are as far apart as they reach do
not overlap.  Boxes do so if their common corner distance is not too large. -/
def Clears : Figure → Figure → Prop
  | disc _, disc _ => True
  | box width height, box otherWidth otherHeight =>
      (width + otherWidth) ^ 2 + (height + otherHeight) ^ 2 ≤
        (max width height + max otherWidth otherHeight) ^ 2
  | _, _ => False

theorem reach_nonneg (figure : Figure) : 0 ≤ figure.reach := by
  cases figure with
  | disc radius => exact radius.coe_nonneg
  | box width height =>
      exact div_nonneg (NNReal.coe_nonneg _) (Nat.cast_nonneg 2)

/-! ## Points of a box -/

variable {width height otherWidth otherHeight : NNReal} {center point : ℂ}

theorem reach_box (width height : NNReal) :
    (box width height).reach = max (width : ℝ) height / 2 := by
  rw [reach, half_eq, NNReal.coe_max]

theorem mem_box_iff :
    point ∈ (box width height).region center ↔
      |point.re - center.re| ≤ width / 2 ∧
        |point.im - center.im| ≤ height / 2 := by
  rw [← half_eq, ← half_eq]
  exact Iff.rfl

theorem mem_interior_box_iff :
    point ∈ interior ((box width height).region center) ↔
      |point.re - center.re| < width / 2 ∧
        |point.im - center.im| < height / 2 := by
  rw [region, Complex.interior_reProdIm, interior_closedBall',
    interior_closedBall', half_eq, half_eq]
  exact Iff.rfl

theorem interior_disc (radius : NNReal) (center : ℂ) :
    interior ((disc radius).region center) = Metric.ball center radius :=
  interior_closedBall' center radius

/-- The way from the center of a box to its corner. -/
noncomputable def corner (width height : NNReal) : ℂ :=
  ⟨half width, half height⟩

theorem reach_lt_norm_corner (wide : 0 < width) (high : 0 < height) :
    (box width height).reach < ‖corner width height‖ := by
  have realWidth : (0 : ℝ) < width := wide
  have realHeight : (0 : ℝ) < height := high
  have acrossWidth : |(corner width height).re| < ‖corner width height‖ :=
    Complex.abs_re_lt_norm.2 (by simp only [corner, half_eq]; positivity)
  have acrossHeight : |(corner width height).im| < ‖corner width height‖ :=
    Complex.abs_im_lt_norm.2 (by simp only [corner, half_eq]; positivity)
  rw [reach_box, ← max_div_div_right two_pos.le, max_lt_iff]
  constructor
  · exact lt_of_abs_lt acrossWidth
  · exact lt_of_abs_lt acrossHeight

theorem add_corner_mem_box (width height : NNReal) (center : ℂ) :
    center + corner width height ∈ (box width height).region center := by
  rw [mem_box_iff, Complex.add_re, Complex.add_im, add_sub_cancel_left,
    add_sub_cancel_left]
  constructor
  · exact (abs_of_nonneg (div_nonneg width.coe_nonneg two_pos.le)).le
  · exact (abs_of_nonneg (div_nonneg height.coe_nonneg two_pos.le)).le

/-- A point on the line from the center of a box through its corner. -/
theorem mem_interior_box_diagonal {share : ℝ} (wide : 0 < width)
    (high : 0 < height) (within : |share| < 1) :
    center + share • corner width height ∈
      interior ((box width height).region center) := by
  have realWidth : (0 : ℝ) < width / 2 := half_pos wide
  have realHeight : (0 : ℝ) < height / 2 := half_pos high
  rw [mem_interior_box_iff, Complex.add_re, Complex.add_im,
    add_sub_cancel_left, add_sub_cancel_left, Complex.smul_re,
    Complex.smul_im, smul_eq_mul, smul_eq_mul, abs_mul, abs_mul]
  simp only [corner, half_eq]
  rw [abs_of_pos realWidth, abs_of_pos realHeight]
  exact ⟨mul_lt_of_lt_one_left realWidth within,
    mul_lt_of_lt_one_left realHeight within⟩

theorem dist_add_smul (center direction : ℂ) (left right : ℝ) :
    dist (center + left • direction) (center + right • direction) =
      |left - right| * ‖direction‖ := by
  rw [dist_add_left, dist_eq_norm, ← sub_smul, norm_smul, Real.norm_eq_abs]

/-! ## Within reach -/

/-- The reach of a figure bounds it only if the figure is round. -/
theorem region_subset_reach_iff (figure : Figure) (center : ℂ) :
    figure.region center ⊆ Metric.closedBall center figure.reach ↔
      figure.IsRound := by
  cases figure with
  | disc radius => exact iff_of_true subset_rfl trivial
  | box width height =>
      constructor
      · intro bounded
        by_contra solid
        rw [IsRound, not_or] at solid
        have farther := reach_lt_norm_corner
          (pos_iff_ne_zero.2 solid.1) (pos_iff_ne_zero.2 solid.2)
        have near := bounded (add_corner_mem_box width height center)
        rw [Metric.mem_closedBall, dist_self_add_left] at near
        exact absurd near (not_le.2 farther)
      · intro flat point inside
        rw [mem_box_iff] at inside
        rw [Metric.mem_closedBall, reach_box]
        cases flat with
        | inl noWidth =>
            rw [noWidth, NNReal.coe_zero, zero_div, abs_nonpos_iff,
              sub_eq_zero] at inside
            rw [Complex.dist_of_re_eq inside.1, Real.dist_eq]
            exact inside.2.trans
              (div_le_div_of_nonneg_right (le_max_right _ _) two_pos.le)
        | inr noHeight =>
            rw [noHeight, NNReal.coe_zero, zero_div, abs_nonpos_iff,
              sub_eq_zero] at inside
            rw [Complex.dist_of_im_eq inside.2, Real.dist_eq]
            exact inside.1.trans
              (div_le_div_of_nonneg_right (le_max_left _ _) two_pos.le)

/-! ## Apart -/

theorem interior_eq_empty {figure : Figure} (thin : figure.IsThin)
    (center : ℂ) : interior (figure.region center) = ∅ := by
  rw [Set.eq_empty_iff_forall_notMem]
  intro point inside
  cases figure with
  | disc radius =>
      rw [interior_disc, show radius = 0 from thin, NNReal.coe_zero,
        Metric.ball_zero] at inside
      exact inside
  | box width height =>
      rw [mem_interior_box_iff] at inside
      cases thin with
      | inl noWidth =>
          rw [noWidth, NNReal.coe_zero, zero_div] at inside
          exact absurd inside.1 (not_lt.2 (abs_nonneg _))
      | inr noHeight =>
          rw [noHeight, NNReal.coe_zero, zero_div] at inside
          exact absurd inside.2 (not_lt.2 (abs_nonneg _))

/-- Whether figures that are as far apart as they reach never overlap. -/
def KeepApart (first second : Figure) : Prop :=
  ∀ left right : ℂ, first.reach + second.reach ≤ dist left right →
    Disjoint (interior (first.region left)) (interior (second.region right))

theorem KeepApart.symm {first second : Figure}
    (apart : first.KeepApart second) : second.KeepApart first := by
  intro left right far
  rw [add_comm, dist_comm] at far
  exact (apart right left far).symm

/-- A disc on the diagonal of a box, as far from it as both reach, overlaps the
corner of the box. -/
theorem not_keepApart_disc_box {radius : NNReal} (round : 0 < radius)
    (wide : 0 < width) (high : 0 < height) :
    ¬ (disc radius).KeepApart (box width height) := by
  intro apart
  have positive : (0 : ℝ) < radius := round
  have farther := reach_lt_norm_corner wide high
  set reached := (box width height).reach
  have notNegative : 0 ≤ reached := reach_nonneg _
  set span := ‖corner width height‖
  have spans : 0 < span := notNegative.trans_lt farther
  -- A point between the reach and the corner that the disc covers as well.
  obtain ⟨within, beyond, before⟩ : ∃ within, reached < within ∧
      within < min span (reached + 2 * radius) :=
    exists_between (lt_min farther (by linarith))
  obtain ⟨beforeCorner, beforeEnd⟩ := lt_min_iff.1 before
  have inBox : (0 : ℂ) + (within / span) • corner width height ∈
      interior ((box width height).region 0) := by
    apply mem_interior_box_diagonal wide high
    rw [abs_of_pos (div_pos (notNegative.trans_lt beyond) spans),
      div_lt_one spans]
    exact beforeCorner
  have inDisc : (0 : ℂ) + (within / span) • corner width height ∈
      interior ((disc radius).region
        (0 + ((reached + radius) / span) • corner width height)) := by
    rw [interior_disc, Metric.mem_ball, dist_add_smul, ← sub_div, abs_div,
      abs_of_pos spans, div_mul_cancel₀ _ spans.ne', abs_lt]
    constructor <;> linarith
  have far : (disc radius).reach + reached ≤
      dist (0 + ((reached + radius) / span) • corner width height)
        (0 : ℂ) := by
    rw [zero_add, dist_zero_right, norm_smul, Real.norm_eq_abs,
      abs_of_pos (div_pos (by linarith) spans), div_mul_cancel₀ _ spans.ne',
      add_comm, reach]
  exact Set.disjoint_left.1 (apart _ _ far) inDisc inBox

theorem corner_add_corner : corner width height + corner otherWidth otherHeight =
    corner (width + otherWidth) (height + otherHeight) := by
  apply Complex.ext
  · simp only [corner, half_eq, Complex.add_re, NNReal.coe_add, add_div]
  · simp only [corner, half_eq, Complex.add_im, NNReal.coe_add, add_div]

theorem clears_box_iff :
    (box width height).Clears (box otherWidth otherHeight) ↔
      ‖corner (width + otherWidth) (height + otherHeight)‖ ≤
        (box width height).reach + (box otherWidth otherHeight).reach := by
  have notNegative : 0 ≤
      (box width height).reach + (box otherWidth otherHeight).reach :=
    add_nonneg (reach_nonneg _) (reach_nonneg _)
  rw [Clears, ← NNReal.coe_le_coe, Complex.norm_def, Real.sqrt_le_iff,
    and_iff_right notNegative, Complex.normSq_apply]
  simp only [corner, half_eq, reach_box]
  push_cast
  constructor
  · intro clears
    linarith
  · intro clears
    linarith

/-- Two boxes keep apart just if their common diagonal is not longer than both
reach.  If it is longer, they overlap where one is placed on the diagonal of the
other. -/
theorem keepApart_box_box_iff (wide : 0 < width) (high : 0 < height)
    (otherWide : 0 < otherWidth) (otherHigh : 0 < otherHeight) :
    (box width height).KeepApart (box otherWidth otherHeight) ↔
      (box width height).Clears (box otherWidth otherHeight) := by
  rw [clears_box_iff]
  set reached := (box width height).reach + (box otherWidth otherHeight).reach
  set diagonal := corner (width + otherWidth) (height + otherHeight)
  have notNegative : 0 ≤ reached :=
    add_nonneg (reach_nonneg _) (reach_nonneg _)
  constructor
  · intro apart
    by_contra longer
    rw [not_le] at longer
    have spans : 0 < ‖diagonal‖ := notNegative.trans_lt longer
    set share := reached / ‖diagonal‖
    have within : |share| < 1 := by
      rw [abs_of_nonneg (div_nonneg notNegative spans.le), div_lt_one spans]
      exact longer
    have inSecond : (0 : ℂ) + share • corner otherWidth otherHeight ∈
        interior ((box otherWidth otherHeight).region 0) :=
      mem_interior_box_diagonal otherWide otherHigh within
    have inFirst : (0 : ℂ) + share • corner otherWidth otherHeight ∈
        interior ((box width height).region (share • diagonal)) := by
      have onDiagonal : (0 : ℂ) + share • corner otherWidth otherHeight =
          share • diagonal + (-share) • corner width height := by
        simp only [diagonal, ← corner_add_corner]
        module
      rw [onDiagonal]
      apply mem_interior_box_diagonal wide high
      rw [abs_neg]
      exact within
    have far : reached ≤ dist (share • diagonal) 0 := by
      rw [dist_zero_right, norm_smul, Real.norm_eq_abs,
        abs_of_nonneg (div_nonneg notNegative spans.le),
        div_mul_cancel₀ _ spans.ne']
    exact Set.disjoint_left.1 (apart _ _ far) inFirst inSecond
  · intro short left right far
    rw [Set.disjoint_left]
    intro point inFirst inSecond
    rw [mem_interior_box_iff] at inFirst inSecond
    have acrossWidth : |left.re - right.re| < diagonal.re := by
      have triangle := abs_sub_le left.re point.re right.re
      rw [abs_sub_comm left.re point.re] at triangle
      simp only [diagonal, corner, half_eq, NNReal.coe_add, add_div]
      linarith [inFirst.1, inSecond.1]
    have acrossHeight : |left.im - right.im| < diagonal.im := by
      have triangle := abs_sub_le left.im point.im right.im
      rw [abs_sub_comm left.im point.im] at triangle
      simp only [diagonal, corner, half_eq, NNReal.coe_add, add_div]
      linarith [inFirst.2, inSecond.2]
    have near : dist left right < ‖diagonal‖ := by
      rw [Complex.dist_eq_re_im, Complex.norm_def, Complex.normSq_apply]
      apply Real.sqrt_lt_sqrt (by positivity)
      rw [← pow_two, ← pow_two]
      exact add_lt_add (sq_lt_sq.2 (acrossWidth.trans_le (le_abs_self _)))
        (sq_lt_sq.2 (acrossHeight.trans_le (le_abs_self _)))
    exact absurd (far.trans_lt (near.trans_le short)) (lt_irrefl _)

/-- Figures keep apart if one of them has no inner points or if they clear each
other, and otherwise they do not. -/
theorem keepApart_iff (first second : Figure) :
    first.KeepApart second ↔
      first.IsThin ∨ second.IsThin ∨ first.Clears second := by
  by_cases thin : first.IsThin ∨ second.IsThin
  · rw [← or_assoc]
    refine iff_of_true ?_ (.inl thin)
    intro left right _
    cases thin with
    | inl thin =>
        rw [interior_eq_empty thin]
        exact Set.empty_disjoint _
    | inr thin =>
        rw [interior_eq_empty thin]
        exact Set.disjoint_empty _
  · rw [← or_assoc, or_iff_right thin]
    rw [not_or] at thin
    cases first with
    | disc radius =>
        have round : 0 < radius := pos_iff_ne_zero.2 thin.1
        cases second with
        | disc other =>
            refine iff_of_true ?_ trivial
            intro left right far
            rw [interior_disc, interior_disc]
            exact Metric.ball_disjoint_ball far
        | box width height =>
            have sides := not_or.1 thin.2
            refine iff_of_false ?_ not_false
            exact not_keepApart_disc_box round (pos_iff_ne_zero.2 sides.1)
              (pos_iff_ne_zero.2 sides.2)
    | box width height =>
        have sides := not_or.1 thin.1
        have wide : 0 < width := pos_iff_ne_zero.2 sides.1
        have high : 0 < height := pos_iff_ne_zero.2 sides.2
        cases second with
        | disc radius =>
            refine iff_of_false ?_ not_false
            intro apart
            exact not_keepApart_disc_box (pos_iff_ne_zero.2 thin.2) wide high
              apart.symm
        | box otherWidth otherHeight =>
            have otherSides := not_or.1 thin.2
            exact keepApart_box_box_iff wide high
              (pos_iff_ne_zero.2 otherSides.1) (pos_iff_ne_zero.2 otherSides.2)

/-! ## Inside a disc -/

/-- Figures that reach no farther than a disc does, seen from its center, lie
inside the disc, if they are round or if no placement comes so near; otherwise
one that touches the disc from within has a corner outside. -/
theorem inside_disc_iff (radius : NNReal) (figure : Figure) :
    (∀ outer inner : ℂ, dist outer inner + figure.reach ≤ radius →
      figure.region inner ⊆ (disc radius).region outer) ↔
      radius < figure.reach ∨ figure.IsRound := by
  constructor
  · intro inside
    by_contra neither
    rw [not_or, not_lt] at neither
    cases figure with
    | disc other => exact neither.2 trivial
    | box width height =>
        have sides := not_or.1 neither.2
        have farther := reach_lt_norm_corner (pos_iff_ne_zero.2 sides.1)
          (pos_iff_ne_zero.2 sides.2)
        have notNegative := reach_nonneg (box width height)
        set reached := (box width height).reach
        set span := ‖corner width height‖
        have spans : 0 < span := notNegative.trans_lt farther
        have room : 0 ≤ radius - reached := sub_nonneg.2 neither.1
        set inner : ℂ := ((radius - reached) / span) • corner width height
        have distance : ‖inner‖ = radius - reached := by
          rw [norm_smul, Real.norm_eq_abs, abs_of_nonneg (div_nonneg room spans.le),
            div_mul_cancel₀ _ spans.ne']
        have touching : dist 0 inner + reached ≤ radius := by
          rw [dist_zero_left, distance, sub_add_cancel]
        have covered := inside 0 inner touching
          (add_corner_mem_box width height inner)
        have outside : ‖inner + corner width height‖ =
            radius - reached + span := by
          have onDiagonal : inner + corner width height =
              ((radius - reached) / span + 1) • corner width height := by
            rw [add_smul, one_smul]
          have positive : 0 ≤ (radius - reached) / span + 1 := by positivity
          rw [onDiagonal, norm_smul, Real.norm_eq_abs, abs_of_nonneg positive,
            add_mul, div_mul_cancel₀ _ spans.ne', one_mul]
        rw [region, Metric.mem_closedBall, dist_zero_right, outside] at covered
        linarith
  · intro condition outer inner near
    cases condition with
    | inl small =>
        have notNegative := dist_nonneg (x := outer) (y := inner)
        exact absurd near (not_le.2 (by linarith))
    | inr round =>
        refine ((region_subset_reach_iff figure inner).2 round).trans ?_
        apply Metric.closedBall_subset_closedBall'
        rw [add_comm, dist_comm]
        exact near

end Figure

end DiagramEnergy
