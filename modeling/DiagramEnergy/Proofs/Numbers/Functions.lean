import DiagramEnergy.Proofs.Numbers.Mirroring
import DiagramEnergy.Proofs.Outcomes
import DiagramEnergy.Standard.Functions

/-!
# The standard functions over changed numbers

The standard functions give changed results for changed arguments and the same
errors.  Those that take the larger or the smaller of two numbers do so as far
as these are carried: a constraint takes them of the sides of its shapes, and of
its violation and zero.
-/

namespace DiagramEnergy

variable {σ M N : Type}

/-! ## Arguments -/

namespace Standard

variable (change : N → M) (function : String) (arguments : List (Evaluated N))

@[simp] theorem floats_map (count : Nat) :
    floats function count (arguments.map (Evaluated.mapFloat change)) =
      List.map change <$> floats function count arguments := by
  simp only [floats, List.length_map]
  split
  · exact Except.mapM_map (fun argument =>
      argument.toFloat_mapFloat change function) arguments
  · rfl

@[simp] theorem oneFloat_map :
    oneFloat function (arguments.map (Evaluated.mapFloat change)) =
      change <$> oneFloat function arguments := by
  simp only [oneFloat, floats_map, bind_map_left, map_bind, List.length_map]
  congr 1
  funext numbers
  cases numbers with
  | nil => rfl
  | cons number others => cases others <;> rfl

@[simp] theorem twoFloats_map :
    twoFloats function (arguments.map (Evaluated.mapFloat change)) =
      Prod.map change change <$> twoFloats function arguments := by
  simp only [twoFloats, floats_map, bind_map_left, map_bind, List.length_map]
  congr 1
  funext numbers
  cases numbers with
  | nil => rfl
  | cons first others =>
      cases others with
      | nil => rfl
      | cons second rest => cases rest <;> rfl

@[simp] theorem oneShape_map :
    oneShape function (arguments.map (Evaluated.mapFloat change)) =
      Shape.mapFloat change <$> oneShape function arguments := by
  cases arguments with
  | nil => rfl
  | cons argument others =>
      cases others with
      | nil => exact argument.toShape_mapFloat change function
      | cons second rest =>
          simp only [oneShape, List.map_cons, List.length_cons, List.length_map]
          rfl

@[simp] theorem argumentAt_map (index : Nat) :
    argumentAt function (arguments.map (Evaluated.mapFloat change)) index =
      Evaluated.mapFloat change <$> argumentAt function arguments index := by
  simp only [argumentAt, List.getElem?_map, List.length_map]
  cases arguments[index]? <;> rfl

@[simp] theorem shapeAt_map (index : Nat) :
    shapeAt function (arguments.map (Evaluated.mapFloat change)) index =
      Shape.mapFloat change <$> shapeAt function arguments index := by
  simp only [shapeAt, argumentAt_map, bind_map_left, map_bind,
    Evaluated.toShape_mapFloat]

@[simp] theorem floatAt_map (index : Nat) :
    floatAt function (arguments.map (Evaluated.mapFloat change)) index =
      change <$> floatAt function arguments index := by
  simp only [floatAt, argumentAt_map, bind_map_left, map_bind,
    Evaluated.toFloat_mapFloat]

end Standard

/-! ## Geometry -/

section Carried

variable [Scalar M] [Scalar N] {change : N → M}

namespace Shape

/-- The smaller and the larger side of a shape are carried. -/
structure SidesCarried (change : N → M) (shape : Shape N) : Prop where
  max : ∀ width height, shape.float "w" = .ok width →
    shape.float "h" = .ok height → shape.has "r" = false →
    change (Scalar.max width height) =
      Scalar.max (change width) (change height)
  min : ∀ width height, shape.float "w" = .ok width →
    shape.float "h" = .ok height → shape.has "r" = false →
    change (Scalar.min width height) =
      Scalar.min (change width) (change height)

variable (carries : Scalar.CarriesOperations change)

include carries

theorem center_mapFloat (shape : Shape N) :
    (shape.mapFloat change).center =
      Prod.map change change <$> shape.center := by
  simp only [center, has_mapFloat]
  split
  · simp only [float_mapFloat, bind_map_left, map_bind, map_pure, Prod.map]
  · simp only [float_mapFloat, bind_map_left, map_bind, map_pure, Prod.map,
      carries.mul, carries.add, carries.ofFloat]

theorem squaredDistance_mapFloat (first second : Shape N) :
    (first.mapFloat change).squaredDistance (second.mapFloat change) =
      change <$> first.squaredDistance second := by
  simp only [squaredDistance, center_mapFloat carries, bind_map_left, map_bind,
    map_pure, Prod.map, carries.mul, carries.add, carries.sub]

omit carries in
theorem size_mapFloat {shape : Shape N} (sides : shape.SidesCarried change) :
    (shape.mapFloat change).size = Prod.map change change <$> shape.size := by
  simp only [size, has_mapFloat]
  cases round : shape.has "r" with
  | true => simp [Prod.map]
  | false =>
      simp only [float_mapFloat, bind_map_left]
      cases width : shape.float "w" with
      | error error => rfl
      | ok wide =>
          cases height : shape.float "h" with
          | error error => rfl
          | ok high =>
              have larger := sides.max wide high width height round
              have smaller := sides.min wide high width height round
              exact congrArg Except.ok (Prod.ext smaller.symm larger.symm)

theorem extent_mapFloat {shape : Shape N} (sides : shape.SidesCarried change) :
    (shape.mapFloat change).extent = change <$> shape.extent := by
  simp only [extent, has_mapFloat]
  split
  · exact shape.float_mapFloat change "r"
  · split
    · simp only [size_mapFloat sides, bind_map_left, map_bind, map_pure,
        Prod.map, carries.mul, carries.ofFloat]
    · exact congrArg Except.ok carries.zero.symm

end Shape

/-! ## Computations and objectives -/

namespace Standard

variable (carries : Scalar.Carries change)

include carries

theorem abs_map (arguments : List (Evaluated N)) :
    abs (arguments.map (Evaluated.mapFloat change)) =
      Evaluated.mapFloat change <$> abs arguments := by
  simp only [abs, oneFloat_map, bind_map_left, map_bind, map_pure, number,
    Evaluated.mapFloat, Value.mapFloat, carries.abs]

theorem sqrt_map (arguments : List (Evaluated N)) :
    sqrt (arguments.map (Evaluated.mapFloat change)) =
      Evaluated.mapFloat change <$> sqrt arguments := by
  simp only [sqrt, oneFloat_map, bind_map_left, map_bind, carries.value]
  congr 1
  funext operand
  split
  · rfl
  · simp only [number, map_pure, Evaluated.mapFloat, Value.mapFloat,
      carries.sqrt]

theorem sum_map (arguments : List (Evaluated N)) (total : N) :
    sum (change total) (arguments.map (Evaluated.mapFloat change)) =
      change <$> sum total arguments := by
  induction arguments generalizing total with
  | nil => rfl
  | cons argument arguments induction =>
      simp only [List.map_cons, sum, Evaluated.toFloat_mapFloat, bind_map_left,
        map_bind, ← carries.add, induction]

theorem average_map (arguments : List (Evaluated N)) :
    average (arguments.map (Evaluated.mapFloat change)) =
      Evaluated.mapFloat change <$> average arguments := by
  simp only [average, List.isEmpty_map, List.length_map]
  split
  · rfl
  · rw [← carries.zero]
    simp only [sum_map carries, bind_map_left, map_bind, map_pure, number,
      Evaluated.mapFloat, Value.mapFloat, carries.div, carries.ofFloat]

theorem norm_map (arguments : List (Evaluated N)) :
    norm (arguments.map (Evaluated.mapFloat change)) =
      Evaluated.mapFloat change <$> norm arguments := by
  simp only [norm, twoFloats_map, bind_map_left, map_bind, map_pure, Prod.map,
    number, Evaluated.mapFloat, Value.mapFloat, carries.sqrt, carries.add,
    carries.mul]

theorem centerX_map (arguments : List (Evaluated N)) :
    centerX (arguments.map (Evaluated.mapFloat change)) =
      Evaluated.mapFloat change <$> centerX arguments := by
  simp only [centerX, oneShape_map,
    Shape.center_mapFloat carries.toCarriesOperations, bind_map_left, map_bind,
    map_pure, Prod.map, number, Evaluated.mapFloat, Value.mapFloat]

theorem centerY_map (arguments : List (Evaluated N)) :
    centerY (arguments.map (Evaluated.mapFloat change)) =
      Evaluated.mapFloat change <$> centerY arguments := by
  simp only [centerY, oneShape_map,
    Shape.center_mapFloat carries.toCarriesOperations, bind_map_left, map_bind,
    map_pure, Prod.map, number, Evaluated.mapFloat, Value.mapFloat]

theorem near_map (function : String) (arguments : List (Evaluated N)) :
    near function (arguments.map (Evaluated.mapFloat change)) =
      change <$> near function arguments := by
  simp only [near, shapeAt_map, bind_map_left, map_bind,
    Shape.squaredDistance_mapFloat carries.toCarriesOperations]

theorem nearPoint_map (arguments : List (Evaluated N)) :
    nearPoint (arguments.map (Evaluated.mapFloat change)) =
      change <$> nearPoint arguments := by
  simp only [nearPoint, shapeAt_map, floatAt_map, bind_map_left, map_bind,
    map_pure, Shape.center_mapFloat carries.toCarriesOperations, Prod.map,
    carries.add, carries.mul, carries.sub]

theorem repel_map (arguments : List (Evaluated N)) :
    repel (arguments.map (Evaluated.mapFloat change)) =
      change <$> repel arguments := by
  simp only [repel, near_map carries, bind_map_left, map_bind, map_pure,
    carries.div, carries.add, carries.ofFloat]

omit [Scalar M] [Scalar N] carries in
theorem mirrors_function {excused : Error → Prop}
    {first : List (Evaluated N) → Except Error (Evaluated N)}
    {second : List (Evaluated M) → Except Error (Evaluated M)}
    (carried : ∀ arguments, second (arguments.map (Evaluated.mapFloat change)) =
      Evaluated.mapFloat change <$> first arguments) :
    Computation.Mirrors excused change (.ofFunction first : Computation σ N)
      (.ofFunction second) :=
  Computation.mirrors_ofFunction fun arguments => .of_eq (carried arguments)

/-- The standard computations mirror those with other ways to take the larger and
the smaller of two numbers, if these ways are mirrored. -/
theorem mirrors_computations_with {excused : Error → Prop}
    {larger smaller : List (Evaluated M) → Except Error (Evaluated M)}
    (mirrorsMax : Computation.Mirrors excused change
      (.ofFunction max : Computation σ N) (.ofFunction larger))
    (mirrorsMin : Computation.Mirrors excused change
      (.ofFunction min : Computation σ N) (.ofFunction smaller)) :
    Computations.Mirrors excused change (computations : Computations σ N)
      (.ofList [("abs", .ofFunction abs), ("sqrt", .ofFunction sqrt),
        ("max", .ofFunction larger), ("min", .ofFunction smaller),
        ("average", .ofFunction average), ("norm", .ofFunction norm),
        ("centerX", .ofFunction centerX), ("centerY", .ofFunction centerY)]) :=
  Table.Related.ofList
    (.cons ⟨rfl, mirrors_function (abs_map carries)⟩
    (.cons ⟨rfl, mirrors_function (sqrt_map carries)⟩
    (.cons ⟨rfl, mirrorsMax⟩
    (.cons ⟨rfl, mirrorsMin⟩
    (.cons ⟨rfl, mirrors_function (average_map carries)⟩
    (.cons ⟨rfl, mirrors_function (norm_map carries)⟩
    (.cons ⟨rfl, mirrors_function (centerX_map carries)⟩
    (.cons ⟨rfl, mirrors_function (centerY_map carries)⟩ .nil))))))))

theorem mirrors_objectives (excused : Error → Prop) :
    ScoreTable.Mirrors excused change objectives objectives :=
  ⟨rfl, Table.Related.ofList
    (.cons ⟨rfl, rfl, fun _ => .of_eq (near_map carries _ _)⟩
    (.cons ⟨rfl, rfl, fun _ => .of_eq (nearPoint_map carries _)⟩
    (.cons ⟨rfl, rfl, fun _ => .of_eq (repel_map carries _)⟩
    (.cons ⟨rfl, rfl, fun _ => .of_eq (near_map carries _ _)⟩ .nil))))⟩

end Standard

/-! ## Constraints -/

namespace Standard

/-- The sides of all shapes among some arguments are carried. -/
def SidesCarried (change : N → M) (arguments : List (Evaluated N)) : Prop :=
  ∀ shape, .shaped shape ∈ arguments → shape.SidesCarried change

omit [Scalar M] [Scalar N] in
theorem mem_of_shapeAt {function : String} {arguments : List (Evaluated N)}
    {index : Nat} {shape : Shape N}
    (found : shapeAt function arguments index = .ok shape) :
    .shaped shape ∈ arguments := by
  simp only [shapeAt, argumentAt] at found
  cases listed : arguments[index]? with
  | none =>
      rw [listed] at found
      cases found
  | some argument =>
      rw [listed] at found
      cases argument with
      | plain value => cases found
      | shaped other =>
          cases found
          exact List.mem_of_getElem? listed

omit [Scalar M] [Scalar N] in
theorem bind_shapeAt_map {function : String} {arguments : List (Evaluated N)}
    {index : Nat} {next : Shape N → Except Error N}
    {onward : Shape M → Except Error M}
    (later : ∀ shape, .shaped shape ∈ arguments →
      onward (shape.mapFloat change) = change <$> next shape) :
    (shapeAt function (arguments.map (Evaluated.mapFloat change)) index >>=
      onward) = change <$> (shapeAt function arguments index >>= next) := by
  rw [shapeAt_map, bind_map_left, map_bind]
  cases found : shapeAt function arguments index with
  | error error => rfl
  | ok shape => exact later shape (mem_of_shapeAt found)

variable (carries : Scalar.CarriesOperations change)
  (penalties : ∀ violation : N,
    change (penalty violation) = penalty (change violation))
  {arguments : List (Evaluated N)} (sides : SidesCarried change arguments)

include carries penalties sides

theorem minSize_map :
    minSize (arguments.map (Evaluated.mapFloat change)) =
      change <$> minSize arguments := by
  apply bind_shapeAt_map
  intro shape member
  simp only [Shape.size_mapFloat (sides shape member), bind_map_left, map_bind,
    map_pure, Prod.map, penalties, carries.sub, carries.ofFloat]

theorem maxSize_map :
    maxSize (arguments.map (Evaluated.mapFloat change)) =
      change <$> maxSize arguments := by
  apply bind_shapeAt_map
  intro shape member
  simp only [Shape.size_mapFloat (sides shape member), bind_map_left, map_bind,
    map_pure, Prod.map, penalties, carries.sub, carries.ofFloat]

theorem contains_map :
    contains (arguments.map (Evaluated.mapFloat change)) =
      change <$> contains arguments := by
  apply bind_shapeAt_map
  intro outer outerMember
  apply bind_shapeAt_map
  intro inner innerMember
  simp only [Shape.squaredDistance_mapFloat carries,
    Shape.extent_mapFloat carries (sides outer outerMember),
    Shape.extent_mapFloat carries (sides inner innerMember), bind_map_left,
    map_bind, map_pure, penalties, carries.sub, carries.add, carries.sqrt]

theorem disjoint_map :
    disjoint (arguments.map (Evaluated.mapFloat change)) =
      change <$> disjoint arguments := by
  apply bind_shapeAt_map
  intro first firstMember
  apply bind_shapeAt_map
  intro second secondMember
  simp only [Shape.squaredDistance_mapFloat carries,
    Shape.extent_mapFloat carries (sides first firstMember),
    Shape.extent_mapFloat carries (sides second secondMember), bind_map_left,
    map_bind, map_pure, penalties, carries.sub, carries.add, carries.sqrt]

theorem smallerThan_map :
    smallerThan (arguments.map (Evaluated.mapFloat change)) =
      change <$> smallerThan arguments := by
  apply bind_shapeAt_map
  intro first firstMember
  apply bind_shapeAt_map
  intro second secondMember
  simp only [Shape.extent_mapFloat carries (sides first firstMember),
    Shape.extent_mapFloat carries (sides second secondMember), bind_map_left,
    map_bind, map_pure, penalties, carries.sub]

omit sides in
/-- All constraints are carried for shapes whose sides are. -/
theorem carried_constraints :
    Table.Related (fun registered other =>
      other.1 = registered.1 ∧ ∀ arguments, SidesCarried change arguments →
        other.2 (arguments.map (Evaluated.mapFloat change)) =
          change <$> registered.2 arguments)
      (constraints : ScoreTable N).functions
      (constraints : ScoreTable M).functions :=
  Table.Related.ofList
    (.cons ⟨rfl, rfl, fun _ => minSize_map carries penalties⟩
    (.cons ⟨rfl, rfl, fun _ => maxSize_map carries penalties⟩
    (.cons ⟨rfl, rfl, fun _ => contains_map carries penalties⟩
    (.cons ⟨rfl, rfl, fun _ => disjoint_map carries penalties⟩
    (.cons ⟨rfl, rfl, fun _ => smallerThan_map carries penalties⟩ .nil)))))

end Standard

/-! ## Homomorphisms -/

namespace Standard

variable (isHom : Scalar.IsHom change)

include isHom

theorem max_map (arguments : List (Evaluated N)) :
    max (arguments.map (Evaluated.mapFloat change)) =
      Evaluated.mapFloat change <$> max arguments := by
  simp only [max, twoFloats_map, bind_map_left, map_bind, map_pure, Prod.map,
    number, Evaluated.mapFloat, Value.mapFloat, isHom.max]

theorem min_map (arguments : List (Evaluated N)) :
    min (arguments.map (Evaluated.mapFloat change)) =
      Evaluated.mapFloat change <$> min arguments := by
  simp only [min, twoFloats_map, bind_map_left, map_bind, map_pure, Prod.map,
    number, Evaluated.mapFloat, Value.mapFloat, isHom.min]

theorem penalty_map (violation : N) :
    change (penalty violation) = penalty (change violation) := by
  simp only [penalty, isHom.mul, isHom.max, isHom.zero]

theorem sidesCarried (arguments : List (Evaluated N)) :
    SidesCarried change arguments :=
  fun _ _ => ⟨fun width height _ _ _ => isHom.max width height,
    fun width height _ _ _ => isHom.min width height⟩

theorem mirrors_computations (excused : Error → Prop) :
    Computations.Mirrors excused change
      (computations : Computations σ N) computations :=
  mirrors_computations_with isHom.toCarries (mirrors_function (max_map isHom))
    (mirrors_function (min_map isHom))

theorem mirrors_constraints (excused : Error → Prop) :
    ScoreTable.Mirrors excused change constraints constraints := by
  have carried := carried_constraints isHom.toCarriesOperations
    (penalty_map isHom)
  refine ⟨rfl, carried.imp ?_⟩
  rintro registered other ⟨sameSignature, score⟩
  exact ⟨sameSignature, fun arguments =>
    .of_eq (score arguments (sidesCarried isHom arguments))⟩

/-- The standard functions do the same over all numbers. -/
theorem mirrors_registries (excused : Error → Prop) :
    Registries.Mirrors excused change (registries : Registries σ N)
      registries :=
  ⟨mirrors_computations isHom excused,
    mirrors_objectives isHom.toCarries excused,
    mirrors_constraints isHom excused⟩

end Standard

end Carried

end DiagramEnergy
