import DiagramEnergy.Proofs.Evaluation.Transparency

/-!
# Evaluation is local

An evaluation reads and writes nothing but what its expression reaches: the
paths that it mentions and all that these need.  Two stores with overrides that
agree there, whatever they hold elsewhere, give one result or one error, end up
with the same contents there, and keep all their other contents.

The two runs are followed side by side, over any set of paths that no demand of
the first store leads out of.
-/

namespace DiagramEnergy

variable {σ N α β : Type}

/-- The paths that the evaluation of an expression may come across. -/
def Expr.Reaches (expr : Expr) (store : Store N) (overrides : Overrides N)
    (path : Path) : Prop :=
  ∃ root, expr.Mentions root ∧ store.Needs overrides root path

theorem Expr.closed_reaches (expr : Expr) (store : Store N)
    (overrides : Overrides N) :
    store.Closed overrides (expr.Reaches store overrides) :=
  store.closed_needs overrides expr.Mentions

theorem Expr.Mentions.reaches {expr : Expr} {path : Path}
    (mentioned : expr.Mentions path) (store : Store N)
    (overrides : Overrides N) : expr.Reaches store overrides path :=
  ⟨path, mentioned, .itself path⟩

/-- No smaller set holds the mentioned paths and lets no demand lead out. -/
theorem Expr.Reaches.least {expr : Expr} {store : Store N}
    {overrides : Overrides N} {reach : Path → Prop}
    (closed : store.Closed overrides reach)
    (mentions : ∀ path, expr.Mentions path → reach path) {path : Path}
    (reached : expr.Reaches store overrides path) : reach path := by
  obtain ⟨root, mentioned, needed⟩ := reached
  have start := mentions root mentioned
  clear mentioned
  induction needed with
  | itself path => exact start
  | slot asked mentioned _ induction =>
      exact induction (closed.slot start asked mentioned)
  | part asked member _ induction =>
      exact induction (closed.part start asked member)

/-- What a path asks for once a value has been cached there. -/
def Demand.fill (value : Value N) : Demand N → Demand N
  | .evaluate _ => .ready value
  | other => other

namespace Store

/-- Where a path leads in a store alone: an error, a content, or a shape, of
which the kind and the names of its properties count. -/
def outlook (store : Store N) (path : Path) : Except Error (Demand N) :=
  Demand.ofResolved <$> store.lookup path

theorem demand_of_free {store : Store N} {overrides : Overrides N}
    {path : Path} (free : overrides.get? path = none) :
    store.demand overrides path = store.outlook path := by
  simp only [demand, resolve, free, outlook]

/-- Caching settles the demand of its path and of no other. -/
theorem demand_cacheValue {store : Store N} {overrides : Overrides N}
    {path other : Path} {value : Value N}
    (free : overrides.get? other = none) :
    (store.cacheValue path value).demand overrides other =
      if other = path then Demand.fill value <$> store.demand overrides other
      else store.demand overrides other := by
  have outlines := outline_cacheValue store path value
  have contents := content?_cacheValue store path other value
  by_cases same : other = path
  · subst same
    rw [if_pos rfl] at contents ⊢
    rw [demand_of_not_overridden free, demand_of_not_overridden free, contents,
      assembly_congr outlines]
    cases store.content? other with
    | none =>
        simp only [Option.map_none, assembly]
        split <;> rfl
    | some content => cases content <;> rfl
  · rw [if_neg same] at contents ⊢
    exact demand_congr outlines contents

theorem content?_eq_of_demand {first second : Store N}
    {firstOverrides secondOverrides : Overrides N} {path : Path}
    (firstFree : firstOverrides.get? path = none)
    (secondFree : secondOverrides.get? path = none)
    (same : first.demand firstOverrides path =
      second.demand secondOverrides path) :
    first.content? path = second.content? path := by
  rw [demand_of_not_overridden firstFree,
    demand_of_not_overridden secondFree] at same
  cases firstContent : first.content? path with
  | none =>
      cases secondContent : second.content? path with
      | none => rfl
      | some content =>
          rw [firstContent, secondContent] at same
          exact absurd same assembly_ne_ofContent
  | some content =>
      cases secondContent : second.content? path with
      | none =>
          rw [firstContent, secondContent] at same
          exact absurd same.symm assembly_ne_ofContent
      | some other =>
          rw [firstContent, secondContent] at same
          cases content <;> cases other <;> simp_all [Demand.ofContent]

/-- Two stores with overrides that agree on some paths: each has the same
override in both, or none and the same outlook. -/
structure AgreeOn (reach : Path → Prop) (first : Store N)
    (firstOverrides : Overrides N) (second : Store N)
    (secondOverrides : Overrides N) : Prop where
  overrides : ∀ path, reach path →
    firstOverrides.get? path = secondOverrides.get? path
  outlooks : ∀ path, reach path → firstOverrides.get? path = none →
    first.outlook path = second.outlook path

namespace AgreeOn

variable {reach : Path → Prop} {first second : Store N}
  {firstOverrides secondOverrides : Overrides N}

theorem demand
    (agree : AgreeOn reach first firstOverrides second secondOverrides)
    {path : Path} (reached : reach path) :
    first.demand firstOverrides path = second.demand secondOverrides path := by
  have same := agree.overrides path reached
  cases overridden : firstOverrides.get? path with
  | some number =>
      rw [demand_override overridden, demand_override (same ▸ overridden)]
  | none =>
      rw [demand_of_free overridden, demand_of_free (same ▸ overridden)]
      exact agree.outlooks path reached overridden

theorem content?
    (agree : AgreeOn reach first firstOverrides second secondOverrides)
    {path : Path} (reached : reach path)
    (free : firstOverrides.get? path = none) :
    first.content? path = second.content? path :=
  content?_eq_of_demand free (agree.overrides path reached ▸ free)
    (agree.demand reached)

/-- The second store is as closed as the first one. -/
theorem closed
    (agree : AgreeOn reach first firstOverrides second secondOverrides)
    (closed : first.Closed firstOverrides reach) :
    second.Closed secondOverrides reach := by
  constructor
  · intro path next expr reached asked mentioned
    rw [← agree.demand reached] at asked
    exact closed.slot reached asked mentioned
  · intro path kind name names reached asked member
    rw [← agree.demand reached] at asked
    exact closed.part reached asked member

theorem cacheValue
    (agree : AgreeOn reach first firstOverrides second secondOverrides)
    (path : Path) (value : Value N) :
    AgreeOn reach (first.cacheValue path value) firstOverrides
      (second.cacheValue path value) secondOverrides := by
  refine ⟨agree.overrides, ?_⟩
  intro other reached free
  have secondFree : secondOverrides.get? other = none :=
    agree.overrides other reached ▸ free
  rw [← demand_of_free free, ← demand_of_free secondFree,
    demand_cacheValue free, demand_cacheValue secondFree,
    agree.demand reached]

end AgreeOn

/-- Agreement on paths that no demand of the first store leads out of. -/
structure Linked (reach : Path → Prop) (first : Store N)
    (firstOverrides : Overrides N) (second : Store N)
    (secondOverrides : Overrides N) : Prop where
  closed : first.Closed firstOverrides reach
  agree : AgreeOn reach first firstOverrides second secondOverrides

theorem Linked.cacheValue {reach : Path → Prop} {first second : Store N}
    {firstOverrides secondOverrides : Overrides N}
    (linked : Linked reach first firstOverrides second secondOverrides)
    {path : Path} (free : firstOverrides.get? path = none) (value : Value N) :
    Linked reach (first.cacheValue path value) firstOverrides
      (second.cacheValue path value) secondOverrides :=
  ⟨linked.closed.filled (grown_cacheValue free),
    linked.agree.cacheValue path value⟩

end Store

open Store (Linked)

/-- Two descents with one outcome on all linked stores, which stay linked. -/
def Coincide (reach : Path → Prop) (firstOverrides secondOverrides : Overrides N)
    (first second : Descent σ N α) : Prop :=
  ∀ memory other, Linked reach memory.store firstOverrides other.store
      secondOverrides →
    (first.run memory).1 = (second.run other).1 ∧
      Linked reach (first.run memory).2.store firstOverrides
        (second.run other).2.store secondOverrides

namespace Coincide

variable {reach : Path → Prop} {firstOverrides secondOverrides : Overrides N}
  {first second : Descent σ N α}

theorem ofExcept (outcome : Except Error α) :
    Coincide reach firstOverrides secondOverrides
      (Descent.ofExcept outcome : Descent σ N α)
      (Descent.ofExcept outcome) := by
  intro memory other linked
  rw [Descent.run_ofExcept, Descent.run_ofExcept]
  exact ⟨rfl, linked⟩

theorem pure (result : α) :
    Coincide reach firstOverrides secondOverrides
      (Pure.pure result : Descent σ N α) (Pure.pure result) :=
  ofExcept (.ok result)

theorem throw (error : Error) :
    Coincide reach firstOverrides secondOverrides
      (MonadExcept.throw error : Descent σ N α) (MonadExcept.throw error) :=
  ofExcept (.error error)

theorem bind {next onward : α → Descent σ N β}
    (coincide : Coincide reach firstOverrides secondOverrides first second)
    (later : ∀ result, Coincide reach firstOverrides secondOverrides
      (next result) (onward result)) :
    Coincide reach firstOverrides secondOverrides (first >>= next)
      (second >>= onward) := by
  intro memory other linked
  obtain ⟨same, after⟩ := coincide memory other linked
  rw [Descent.run_bind, Descent.run_bind]
  cases ran : first.run memory with
  | mk outcome middle =>
      cases ranOther : second.run other with
      | mk outcomeOther middleOther =>
          rw [ran, ranOther] at same after
          cases same
          cases outcome with
          | error error => exact ⟨rfl, after⟩
          | ok result => exact later result middle middleOther after

theorem plain {first second : Descent σ N (Evaluated N)} (context : String)
    (coincide : Coincide reach firstOverrides secondOverrides first second) :
    Coincide reach firstOverrides secondOverrides
      (Descent.plain context first) (Descent.plain context second) :=
  coincide.bind fun _ => ofExcept _

theorem mapM (items : List β) {first second : β → Descent σ N α}
    (each : ∀ item ∈ items, Coincide reach firstOverrides secondOverrides
      (first item) (second item)) :
    Coincide reach firstOverrides secondOverrides (items.mapM first)
      (items.mapM second) :=
  related_mapM (fun first second =>
    Coincide reach firstOverrides secondOverrides first second) pure bind
    items each

/-- A slot without an override takes one value over in both stores. -/
theorem accept {path : Path} (caching : Bool)
    (free : firstOverrides.get? path = none) (result : Evaluated N) :
    Coincide reach firstOverrides secondOverrides
      (Descent.accept caching path result : Descent σ N (Evaluated N))
      (Descent.accept caching path result) := by
  intro memory other linked
  rw [Descent.run_accept, Descent.run_accept]
  cases result with
  | shaped shape => exact ⟨rfl, linked⟩
  | plain value =>
      refine ⟨rfl, ?_⟩
      cases caching with
      | false => exact linked
      | true => exact linked.cacheValue free value

end Coincide

namespace Evaluator

variable [Scalar N] {evaluator : Evaluator σ N}
  {firstOverrides secondOverrides : Overrides N} {caching : Bool}
  {budget : Nat} {reach : Path → Prop}

theorem coincide_descendExpr_succ
    (pureComputations : evaluator.computations.ArePure)
    (exprs : ∀ expr, (∀ next, expr.Mentions next → reach next) →
      Coincide reach firstOverrides secondOverrides
        (evaluator.descendExpr firstOverrides caching budget expr)
        (evaluator.descendExpr secondOverrides caching budget expr))
    (paths : ∀ path, reach path →
      Coincide reach firstOverrides secondOverrides
        (evaluator.descendPath firstOverrides caching budget path)
        (evaluator.descendPath secondOverrides caching budget path))
    (expr : Expr) (reached : ∀ next, expr.Mentions next → reach next) :
    Coincide reach firstOverrides secondOverrides
      (evaluator.descendExpr firstOverrides caching (budget + 1) expr)
      (evaluator.descendExpr secondOverrides caching (budget + 1) expr) := by
  cases expr using Expr.byForm with
  | leaf expr leaf =>
      rw [descendExpr_leaf leaf, descendExpr_leaf leaf]
      exact Coincide.ofExcept _
  | unary op operand =>
      have operands := exprs operand fun next mentioned =>
        reached next (.unary mentioned)
      exact (operands.plain _).bind fun _ => Coincide.ofExcept _
  | binary op left right =>
      have lefts := exprs left fun next mentioned =>
        reached next (.left mentioned)
      have rights := exprs right fun next mentioned =>
        reached next (.right mentioned)
      exact (lefts.plain _).bind fun _ =>
        (rights.plain _).bind fun _ => Coincide.ofExcept _
  | computation name arguments =>
      simp only [descendExpr]
      cases registered : evaluator.computations.get? name with
      | none => exact Coincide.throw _
      | some computation =>
          obtain ⟨function, same⟩ := pureComputations name computation registered
          subst same
          simp only [Descent.apply_ofFunction]
          have results := Coincide.mapM arguments fun argument member =>
            exprs argument fun next mentioned =>
              reached next (.argument member mentioned)
          exact results.bind fun _ => Coincide.ofExcept _
  | reference path => exact paths path (reached path (.reference path))

theorem coincide_descendPath_succ
    (exprs : ∀ expr, (∀ next, expr.Mentions next → reach next) →
      Coincide reach firstOverrides secondOverrides
        (evaluator.descendExpr firstOverrides caching budget expr)
        (evaluator.descendExpr secondOverrides caching budget expr))
    (paths : ∀ path, reach path →
      Coincide reach firstOverrides secondOverrides
        (evaluator.descendPath firstOverrides caching budget path)
        (evaluator.descendPath secondOverrides caching budget path))
    (path : Path) (reached : reach path) :
    Coincide reach firstOverrides secondOverrides
      (evaluator.descendPath firstOverrides caching (budget + 1) path)
      (evaluator.descendPath secondOverrides caching (budget + 1) path) := by
  intro memory other linked
  rw [run_descendPath, run_descendPath, ← linked.agree.demand reached]
  cases asked : memory.store.demand firstOverrides path with
  | error error => exact Coincide.throw error memory other linked
  | ok wanted =>
      cases wanted with
      | ready value =>
          exact Coincide.pure (Evaluated.plain value) memory other linked
      | evaluate expr =>
          have inner := exprs expr fun next mentioned =>
            linked.closed.slot reached asked mentioned
          have free := (Store.demand_evaluate_iff.1 asked).1
          exact (inner.bind fun result =>
            Coincide.accept caching free result) memory other linked
      | assemble kind names =>
          have parts : ∀ name ∈ names,
              Coincide reach firstOverrides secondOverrides
                (evaluator.descendProperty firstOverrides caching budget path
                  name)
                (evaluator.descendProperty secondOverrides caching budget path
                  name) := by
            intro name member
            have part := paths _ (linked.closed.part reached asked member)
            exact (part.plain _).bind fun value => Coincide.pure (name, value)
          exact ((Coincide.mapM names parts).bind fun values => Coincide.pure
            (Evaluated.shaped (.assembled path kind values))) memory other
              linked

/-- Descents on linked stores coincide, errors and the budget included. -/
theorem coincide_descend
    (pureComputations : evaluator.computations.ArePure)
    (firstOverrides secondOverrides : Overrides N) (reach : Path → Prop)
    (caching : Bool) (budget : Nat) :
    (∀ expr, (∀ next, expr.Mentions next → reach next) →
      Coincide reach firstOverrides secondOverrides
        (evaluator.descendExpr firstOverrides caching budget expr)
        (evaluator.descendExpr secondOverrides caching budget expr)) ∧
    (∀ path, reach path →
      Coincide reach firstOverrides secondOverrides
        (evaluator.descendPath firstOverrides caching budget path)
        (evaluator.descendPath secondOverrides caching budget path)) := by
  induction budget with
  | zero => exact ⟨fun _ _ => Coincide.throw _, fun _ _ => Coincide.throw _⟩
  | succ budget induction =>
      obtain ⟨exprs, paths⟩ := induction
      constructor
      · exact coincide_descendExpr_succ pureComputations exprs paths
      · exact coincide_descendPath_succ exprs paths

/-- An evaluation changes no outline, and no content that is overridden or that
its expression does not reach. -/
theorem content?_evalExprAt {overrides : Overrides N} (depth : Nat)
    {expr : Expr} {pass : Pass σ N}
    (closed : pass.store.Closed overrides reach)
    (reached : ∀ next, expr.Mentions next → reach next) :
    let ended :=
      Evaluation.forget (evaluator.evalExprAt overrides depth expr pass)
    ended.2.store.outline = pass.store.outline ∧
      ∀ path, ¬ reach path ∨ overrides.get? path ≠ none →
        ended.2.store.content? path = pass.store.content? path := by
  intro ended
  have filled := (evaluator.keeps_descend true closed
    (evaluator.limit - depth)).1 expr reached pass.memory (.refl _)
  rw [← forget_evalExprAt] at filled
  refine ⟨filled.outline, ?_⟩
  intro path outside
  rcases filled.contents path with same | ⟨_, _, asked, inside, -⟩
  · exact same
  · rcases outside with unreached | overridden
    · exact absurd inside.1 unreached
    · exact absurd (Store.demand_evaluate_iff.1 asked).1 overridden

/-- Evaluation is local to what its expression reaches. -/
theorem evalExprAt_local (pureComputations : evaluator.computations.ArePure)
    (depth : Nat) (expr : Expr) (first second : Pass σ N)
    (firstOverrides secondOverrides : Overrides N)
    (agree : Store.AgreeOn (expr.Reaches first.store firstOverrides)
      first.store firstOverrides second.store secondOverrides) :
    let reach := expr.Reaches first.store firstOverrides
    let firstEnded := Evaluation.forget
      (evaluator.evalExprAt firstOverrides depth expr first)
    let secondEnded := Evaluation.forget
      (evaluator.evalExprAt secondOverrides depth expr second)
    firstEnded.1 = secondEnded.1 ∧
    (∀ path, reach path → firstOverrides.get? path = none →
      firstEnded.2.store.content? path = secondEnded.2.store.content? path) ∧
    (firstEnded.2.store.outline = first.store.outline ∧
      ∀ path, ¬ reach path ∨ firstOverrides.get? path ≠ none →
        firstEnded.2.store.content? path = first.store.content? path) ∧
    (secondEnded.2.store.outline = second.store.outline ∧
      ∀ path, ¬ reach path ∨ secondOverrides.get? path ≠ none →
        secondEnded.2.store.content? path = second.store.content? path) := by
  intro reach firstEnded secondEnded
  have mentions : ∀ next, expr.Mentions next → reach next :=
    fun next mentioned => mentioned.reaches first.store firstOverrides
  have closed := expr.closed_reaches first.store firstOverrides
  have linked : Linked reach first.memory.store firstOverrides
      second.memory.store secondOverrides := ⟨closed, agree⟩
  obtain ⟨same, ended⟩ := (coincide_descend pureComputations firstOverrides
    secondOverrides reach true (evaluator.limit - depth)).1 expr mentions
    first.memory second.memory linked
  rw [← forget_evalExprAt, ← forget_evalExprAt] at same ended
  refine ⟨same, ?_, ?_, ?_⟩
  · intro path reached free
    exact ended.agree.content? reached free
  · exact content?_evalExprAt depth closed mentions
  · exact content?_evalExprAt depth (agree.closed closed) mentions

end Evaluator

/-- The chained fields beside a free field that they do not need. -/
def Store.sidelined : Store Float :=
  Store.chained.bind "A" "z" (.scalar (.symbolic .vary))

def Overrides.aside : Overrides Float := ⟨.ofList [(.field "A" "z", 1)]⟩

theorem Store.of_reaches_chained {path : Path}
    (reached : (Expr.reference (.field "A" "y")).Reaches .chained .empty
      path) : path = .field "A" "x" ∨ path = .field "A" "y" := by
  have atX : Store.chained.demand .empty (.field "A" "x") =
      .ok (.evaluate (.computation "double" [.int 3])) := rfl
  have atY : Store.chained.demand .empty (.field "A" "y") =
      .ok (.evaluate (.unary .minus (.reference (.field "A" "x")))) := rfl
  have closed : Store.chained.Closed .empty fun path =>
      path = .field "A" "x" ∨ path = .field "A" "y" := by
    constructor
    · rintro path next expr (rfl | rfl) asked mentioned
      · rw [atX] at asked
        cases asked
        cases mentioned with
        | argument member inner =>
            rw [List.mem_singleton.1 member] at inner
            cases inner
      · rw [atY] at asked
        cases asked
        cases mentioned with
        | unary inner =>
            cases inner
            exact .inl rfl
    · rintro path kind name names (rfl | rfl) asked member
      · rw [atX] at asked
        cases asked
      · rw [atY] at asked
        cases asked
  apply reached.least closed
  intro path mentioned
  cases mentioned
  exact .inr rfl

/-- A free field that is overridden in one run makes no difference to a chain
elsewhere, and stays free. -/
theorem Evaluator.evaluates_beside :
    let y := Expr.reference (.field "A" "y")
    let ended := Evaluation.forget
      (doubling.evalExprAt .aside 0 y ⟨.sidelined, (), []⟩)
    doubling.computations.ArePure ∧
    Store.AgreeOn (y.Reaches .chained .empty) .chained .empty .sidelined
      .aside ∧
    (Evaluation.forget (doubling.evalExprAt .empty 0 y
      ⟨.chained, (), []⟩)).1 = ended.1 ∧
    ended.2.store.content? (.field "A" "z") = some (.symbolic .vary) := by
  intro y ended
  have agree : Store.AgreeOn (y.Reaches .chained .empty) .chained .empty
      .sidelined .aside := by
    constructor
    · intro path reached
      rcases Store.of_reaches_chained reached with rfl | rfl <;> rfl
    · intro path reached _
      rcases Store.of_reaches_chained reached with rfl | rfl <;> rfl
  obtain ⟨same, -, -, -, kept⟩ := evalExprAt_local arePure_doubling 0 y
    ⟨.chained, (), []⟩ ⟨.sidelined, (), []⟩ .empty .aside agree
  refine ⟨arePure_doubling, agree, same, kept (.field "A" "z") (.inl ?_)⟩
  intro reached
  rcases Store.of_reaches_chained reached with away | away <;> simp at away

end DiagramEnergy
