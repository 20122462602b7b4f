import DiagramEnergy.Proofs.Numbers.Figures
import DiagramEnergy.Proofs.Problem.Penalties

/-!
# What layout constraints say about regions

Over the reals, a shape with a radius shows a disc around its center, and one
with two sides shows a box.  The extent of a shape is the reach of what it shows,
and so constraints on extents are constraints on regions as far as reaches bound
them: a box with corners may stick out of its extent, overlap a shape that it is
said to be disjoint from, and stick out of a disc that is said to contain it.

Main statements: `constraints_hold_of_regions_iff`,
`not_constraints_hold_of_regions_corner`.
-/

namespace DiagramEnergy

namespace Shape

variable {shape first second : Shape Precise} {figure left right : Figure}
  {center other : ℂ}

/-- The figure of a sized shape.  A radius counts before sides do. -/
inductive HasFigure (shape : Shape Precise) : Figure → Prop where
  | disc {radius : NNReal} :
      shape.Measures Precise.number "r" radius → HasFigure shape (.disc radius)
  | box {width height : NNReal} :
      shape.has "r" = false →
      shape.Measures Precise.number "w" width →
      shape.Measures Precise.number "h" height →
      HasFigure shape (.box width height)

/-- A shape that shows a figure at a center. -/
structure Fills (shape : Shape Precise) (figure : Figure) (center : ℂ) :
    Prop where
  figure : shape.HasFigure figure
  center : shape.HasCenter Precise.number center.re center.im

theorem float_of_measures {property : String} {measure : ℝ}
    (measures : shape.Measures Precise.number property measure) :
    ∃ number, shape.float property = .ok number := by
  obtain ⟨number, found, -⟩ := measures
  refine ⟨number, ?_⟩
  rw [float, found]

theorem HasFigure.hasExtent (shows : shape.HasFigure figure) :
    shape.HasExtent Precise.number figure.reach := by
  cases shows with
  | disc radius => exact .radius radius
  | box missing width height =>
      rw [Figure.reach_box]
      exact .box missing width height

/-- The extent of a sized shape is the reach of its figure. -/
theorem Fills.extent (fills : shape.Fills figure center) :
    ∃ extent, shape.extent = .ok extent ∧ extent.number = figure.reach := by
  have computed : ∃ extent, shape.extent = .ok extent := by
    cases fills.figure with
    | disc radius =>
        obtain ⟨number, read⟩ := float_of_measures radius
        refine ⟨number, ?_⟩
        rw [Shape.extent, if_pos radius.has, read]
    | box missing width height =>
        obtain ⟨widthNumber, readWidth⟩ := float_of_measures width
        obtain ⟨heightNumber, readHeight⟩ := float_of_measures height
        refine ⟨Scalar.max widthNumber heightNumber * Scalar.ofFloat 0.5, ?_⟩
        simp only [Shape.extent, size, missing, width.has, height.has,
          readWidth, readHeight]
        rfl
  obtain ⟨extent, found⟩ := computed
  exact ⟨extent, found, (hasExtent_of_extent Precise.isExact_number found).unique
    fills.figure.hasExtent⟩

theorem exists_center {x y : ℝ}
    (lies : shape.HasCenter Precise.number x y) :
    ∃ found, shape.center = .ok found := by
  cases lies with
  | point abscissa ordinate =>
      obtain ⟨number, read⟩ := float_of_measures abscissa
      obtain ⟨otherNumber, readOther⟩ := float_of_measures ordinate
      refine ⟨(number, otherNumber), ?_⟩
      simp only [Shape.center, abscissa.has, read, readOther]
      rfl
  | middle missing startX endX startY endY =>
      obtain ⟨startNumberX, readStartX⟩ := float_of_measures startX
      obtain ⟨endNumberX, readEndX⟩ := float_of_measures endX
      obtain ⟨startNumberY, readStartY⟩ := float_of_measures startY
      obtain ⟨endNumberY, readEndY⟩ := float_of_measures endY
      simp only [Shape.center, missing, readStartX, readEndX, readStartY,
        readEndY]
      exact ⟨_, rfl⟩

theorem Fills.exists_squaredDistance (fillsFirst : first.Fills left center)
    (fillsSecond : second.Fills right other) :
    ∃ square, first.squaredDistance second = .ok square := by
  obtain ⟨firstCenter, foundFirst⟩ := exists_center fillsFirst.center
  obtain ⟨secondCenter, foundSecond⟩ := exists_center fillsSecond.center
  simp only [squaredDistance, foundFirst, foundSecond]
  exact ⟨_, rfl⟩

theorem Fills.hasDistance (fillsFirst : first.Fills left center)
    (fillsSecond : second.Fills right other) :
    first.HasDistance Precise.number second (dist center other) := by
  refine ⟨_, _, _, _, fillsFirst.center, fillsSecond.center, dist_nonneg, ?_⟩
  rw [Complex.dist_eq_re_im, Real.sq_sqrt (by positivity)]

end Shape

/-! ## Scores -/

namespace Standard

variable {first second : Shape Precise} {left right : Figure}
  {center other : ℂ}

/-- Two sized shapes are scored as disjoint just if they are as far apart as
their figures reach. -/
theorem exists_disjoint_score (fillsFirst : first.Fills left center)
    (fillsSecond : second.Fills right other) :
    ∃ score, constraints.call "disjoint" [.shaped first, .shaped second] =
        .ok score ∧
      (score.number = 0 ↔ left.reach + right.reach ≤ dist center other) := by
  obtain ⟨square, measured⟩ := fillsFirst.exists_squaredDistance fillsSecond
  obtain ⟨firstExtent, foundFirst, -⟩ := fillsFirst.extent
  obtain ⟨secondExtent, foundSecond, -⟩ := fillsSecond.extent
  have scored :
      constraints.call "disjoint" [.shaped first, .shaped second] =
        .ok (penalty (firstExtent + secondExtent - Scalar.sqrt square)) := by
    calc constraints.call "disjoint" [.shaped first, .shaped second]
        = (do
            let square ← first.squaredDistance second
            let firstExtent ← first.extent
            let secondExtent ← second.extent
            return penalty (firstExtent + secondExtent - Scalar.sqrt square)) :=
          rfl
      _ = .ok (penalty (firstExtent + secondExtent - Scalar.sqrt square)) := by
          rw [measured, foundFirst, foundSecond]
          rfl
  refine ⟨_, scored, ?_⟩
  rw [(judges_constraints Precise.isExact_number scored).2]
  exact satisfied_disjoint_iff (fillsFirst.hasDistance fillsSecond)
    fillsFirst.figure.hasExtent fillsSecond.figure.hasExtent

/-- A sized shape is scored as contained in another one just if it reaches no
farther, seen from the center of that one. -/
theorem exists_contains_score (fillsFirst : first.Fills left center)
    (fillsSecond : second.Fills right other) :
    ∃ score, constraints.call "contains" [.shaped first, .shaped second] =
        .ok score ∧
      (score.number = 0 ↔ dist center other + right.reach ≤ left.reach) := by
  obtain ⟨square, measured⟩ := fillsFirst.exists_squaredDistance fillsSecond
  obtain ⟨firstExtent, foundFirst, -⟩ := fillsFirst.extent
  obtain ⟨secondExtent, foundSecond, -⟩ := fillsSecond.extent
  have scored :
      constraints.call "contains" [.shaped first, .shaped second] =
        .ok (penalty (Scalar.sqrt square + secondExtent - firstExtent)) := by
    calc constraints.call "contains" [.shaped first, .shaped second]
        = (do
            let square ← first.squaredDistance second
            let secondExtent ← second.extent
            let firstExtent ← first.extent
            return penalty (Scalar.sqrt square + secondExtent - firstExtent)) :=
          rfl
      _ = .ok (penalty (Scalar.sqrt square + secondExtent - firstExtent)) := by
          rw [measured, foundFirst, foundSecond]
          rfl
  refine ⟨_, scored, ?_⟩
  rw [(judges_constraints Precise.isExact_number scored).2]
  exact satisfied_contains_iff (fillsFirst.hasDistance fillsSecond)
    fillsFirst.figure.hasExtent fillsSecond.figure.hasExtent

end Standard

/-! ## Shapes for all figures -/

namespace Figure

theorem measures_of_mem {kind property : String} {measure : ℝ}
    {bindings : List (String × Value Precise)}
    (distinct : (bindings.map Prod.fst).Nodup)
    (member : (property, .float ⟨measure⟩) ∈ bindings) :
    (Shape.mk kind (.ofList bindings)).Measures Precise.number property
      measure :=
  ⟨⟨measure⟩, Table.get?_ofList_of_mem distinct member, rfl⟩

/-- A shape that shows a figure at a center. -/
def shapeAt (center : ℂ) : Figure → Shape Precise
  | disc radius => ⟨"Disc", .ofList [("x", .float ⟨center.re⟩),
      ("y", .float ⟨center.im⟩), ("r", .float ⟨radius⟩)]⟩
  | box width height => ⟨"Box", .ofList [("x", .float ⟨center.re⟩),
      ("y", .float ⟨center.im⟩), ("w", .float ⟨width⟩),
      ("h", .float ⟨height⟩)]⟩

theorem fills_shapeAt (figure : Figure) (center : ℂ) :
    (figure.shapeAt center).Fills figure center := by
  cases figure with
  | disc radius =>
      have distinct : ["x", "y", "r"].Nodup := by decide
      constructor
      · exact .disc (measures_of_mem distinct (by simp))
      · exact .point (measures_of_mem distinct (by simp))
          (measures_of_mem distinct (by simp))
  | box width height =>
      have distinct : ["x", "y", "w", "h"].Nodup := by decide
      have noRadius : (shapeAt center (.box width height)).has "r" = false := by
        rw [Shape.has, Table.contains, shapeAt,
          Table.get?_ofList_eq_none (by simp)]
        rfl
      constructor
      · exact .box noRadius (measures_of_mem distinct (by simp))
          (measures_of_mem distinct (by simp))
      · exact .point (measures_of_mem distinct (by simp))
          (measures_of_mem distinct (by simp))

end Figure

namespace Standard

variable {first second : Figure}

/-- If a constraint scores zero just for shapes whose centers are related, then a
promise about all shapes that score zero is one about related centers, since
there are shapes for all figures at all centers. -/
theorem forall_scored_iff {function : String} {related promise : ℂ → ℂ → Prop}
    (scores : ∀ {left right : Shape Precise} {center other : ℂ},
      left.Fills first center → right.Fills second other →
      ∃ score, constraints.call function [.shaped left, .shaped right] =
          .ok score ∧
        (score.number = 0 ↔ related center other)) :
    (∀ (left right : Shape Precise) (center other : ℂ),
      left.Fills first center → right.Fills second other →
      ∃ score, constraints.call function [.shaped left, .shaped right] =
          .ok score ∧
        (score.number = 0 → promise center other)) ↔
      ∀ center other, related center other → promise center other := by
  constructor
  · intro promised center other near
    have fillsFirst := first.fills_shapeAt center
    have fillsSecond := second.fills_shapeAt other
    obtain ⟨score, scored, kept⟩ := promised _ _ _ _ fillsFirst fillsSecond
    obtain ⟨score', scored', zero⟩ := scores fillsFirst fillsSecond
    rw [scored] at scored'
    cases scored'
    exact kept (zero.2 near)
  · intro kept left right center other fillsFirst fillsSecond
    obtain ⟨score, scored, zero⟩ := scores fillsFirst fillsSecond
    refine ⟨score, scored, ?_⟩
    intro isZero
    exact kept center other (zero.1 isZero)

/-- For which figures the extent of a shape and the constraints on two shapes
tell the truth about their regions, wherever the shapes are.  A region lies
within the extent of its shape just if the figure is round.  Shapes that score
zero as disjoint have no inner points in common just if one of them has none at
all or the figures clear each other.  A shape that scores zero as contained in a
disc lies inside the disc just if its figure is round or too large ever to score
zero. -/
theorem constraints_hold_of_regions_iff (first second : Figure) :
    ((∀ (shape : Shape Precise) (center : ℂ), shape.Fills first center →
        ∃ extent, shape.extent = .ok extent ∧
          first.region center ⊆ Metric.closedBall center extent.number) ↔
      first.IsRound) ∧
    ((∀ (left right : Shape Precise) (center other : ℂ),
        left.Fills first center → right.Fills second other →
        ∃ score, constraints.call "disjoint" [.shaped left, .shaped right] =
            .ok score ∧
          (score.number = 0 → Disjoint (interior (first.region center))
            (interior (second.region other)))) ↔
      first.IsThin ∨ second.IsThin ∨ first.Clears second) ∧
    ∀ radius : NNReal,
      (∀ (outer inner : Shape Precise) (center other : ℂ),
        outer.Fills (.disc radius) center → inner.Fills second other →
        ∃ score, constraints.call "contains" [.shaped outer, .shaped inner] =
            .ok score ∧
          (score.number = 0 →
            second.region other ⊆ (Figure.disc radius).region center)) ↔
      radius < second.reach ∨ second.IsRound := by
  refine ⟨?_, ?_, ?_⟩
  · rw [← Figure.region_subset_reach_iff first 0]
    constructor
    · intro bounded
      have fills := first.fills_shapeAt 0
      obtain ⟨extent, found, within⟩ := bounded _ _ fills
      obtain ⟨reached, found', same⟩ := fills.extent
      rw [found] at found'
      cases found'
      rw [← same]
      exact within
    · intro bounded shape center fills
      obtain ⟨extent, found, same⟩ := fills.extent
      refine ⟨extent, found, ?_⟩
      rw [same, Figure.region_subset_reach_iff,
        ← Figure.region_subset_reach_iff first 0]
      exact bounded
  · rw [← Figure.keepApart_iff]
    exact forall_scored_iff exists_disjoint_score
  · intro radius
    rw [← Figure.inside_disc_iff]
    exact forall_scored_iff exists_contains_score

/-- A box of twelve by sixteen reaches out by eight, but its corner is ten away
from its center: a disc of radius six on the diagonal, fifteen away, covers the
corner, and yet the two score zero as disjoint. -/
theorem not_constraints_hold_of_regions_corner :
    ∃ (left right : Shape Precise) (score : Precise),
      left.Fills (.box 12 16) 0 ∧ right.Fills (.disc 6) ⟨9, 12⟩ ∧
      constraints.call "disjoint" [.shaped left, .shaped right] = .ok score ∧
      score.number = 0 ∧
      ¬ Disjoint (interior ((Figure.box 12 16).region 0))
        (interior ((Figure.disc 6).region ⟨9, 12⟩)) := by
  have fillsBox := (Figure.box 12 16).fills_shapeAt 0
  have fillsDisc := (Figure.disc 6).fills_shapeAt ⟨9, 12⟩
  obtain ⟨score, scored, zero⟩ := exists_disjoint_score fillsBox fillsDisc
  refine ⟨_, _, score, fillsBox, fillsDisc, scored, ?_, ?_⟩
  · apply zero.2
    have distance : dist (0 : ℂ) ⟨9, 12⟩ = 15 := by
      rw [Complex.dist_eq_re_im, Real.sqrt_eq_iff_mul_self_eq (by positivity)
        (by norm_num)]
      norm_num
    rw [distance, Figure.reach_box, Figure.reach]
    norm_num
  · rw [Set.not_disjoint_iff]
    refine ⟨⟨11 / 2, 15 / 2⟩, ?_, ?_⟩
    · rw [Figure.mem_interior_box_iff]
      norm_num [abs_lt]
    · rw [Figure.interior_disc, Metric.mem_ball, Complex.dist_eq_re_im,
        Real.sqrt_lt (by positivity) (by norm_num)]
      norm_num

end Standard

end DiagramEnergy
