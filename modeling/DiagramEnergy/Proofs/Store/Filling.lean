import DiagramEnergy.Proofs.Store.Demand

/-!
# Filling a store

All that an evaluation does to a store is to fill symbolic contents that no
override hides.  Which of them, and with what, is a rule that depends on what
is known about the evaluation; the facts here hold for every rule.
-/

namespace DiagramEnergy

variable {N : Type}

namespace Store

def Holds (store : Store N) (path : Path) : Prop :=
  ∃ value, store.content? path = some (.concrete value)

/-- A store that differs from an earlier one in symbolic contents only, each of
which has been filled with a value that the rule allows for its path. -/
structure Filled (overrides : Overrides N) (rule : Path → Value N → Prop)
    (start later : Store N) : Prop where
  outline : later.outline = start.outline
  contents : ∀ path, later.content? path = start.content? path ∨
    ∃ expr value, start.demand overrides path = .ok (.evaluate expr) ∧
      rule path value ∧ later.content? path = some (.concrete value)

namespace Filled

variable {overrides : Overrides N} {rule : Path → Value N → Prop}
  {start later : Store N} {path : Path}

theorem refl (store : Store N) : Filled overrides rule store store :=
  ⟨rfl, fun _ => .inl rfl⟩

theorem content?_concrete {value : Value N}
    (filled : Filled overrides rule start later)
    (found : start.content? path = some (.concrete value)) :
    later.content? path = some (.concrete value) := by
  rcases filled.contents path with same | ⟨expr, filling, asked, -, -⟩
  · rw [same]
    exact found
  · have symbolic := (demand_evaluate_iff.1 asked).2
    rw [found] at symbolic
    cases symbolic

theorem content?_none (filled : Filled overrides rule start later)
    (absent : start.content? path = none) : later.content? path = none := by
  rcases filled.contents path with same | ⟨expr, value, asked, -, -⟩
  · rw [same]
    exact absent
  · have symbolic := (demand_evaluate_iff.1 asked).2
    rw [absent] at symbolic
    cases symbolic

/-- Caching goes on filling. -/
theorem cacheValue {expr : Expr} {value : Value N}
    (filled : Filled overrides rule start later)
    (asked : start.demand overrides path = .ok (.evaluate expr))
    (ruled : rule path value) :
    Filled overrides rule start (later.cacheValue path value) := by
  refine ⟨by rw [outline_cacheValue, filled.outline], ?_⟩
  intro other
  rw [content?_cacheValue]
  by_cases same : other = path
  · subst same
    rw [if_pos rfl]
    have symbolic := (demand_evaluate_iff.1 asked).2
    rcases filled.contents other with
      unchanged | ⟨expr', earlier, asked', ruled', found⟩
    · rw [unchanged, symbolic]
      exact .inr ⟨expr, value, asked, ruled, rfl⟩
    · rw [found]
      exact .inr ⟨expr', earlier, asked', ruled', rfl⟩
  · rw [if_neg same]
    exact filled.contents other

theorem trans {last : Store N} (first : Filled overrides rule start later)
    (second : Filled overrides rule later last) :
    Filled overrides rule start last := by
  refine ⟨second.outline.trans first.outline, ?_⟩
  intro path
  rcases first.contents path with same | ⟨expr, value, asked, ruled, found⟩
  · rcases second.contents path with same' | ⟨expr, value, asked, ruled, found⟩
    · exact .inl (same'.trans same)
    · refine .inr ⟨expr, value, ?_, ruled, found⟩
      rw [← demand_congr first.outline same]
      exact asked
  · exact .inr ⟨expr, value, asked, ruled, second.content?_concrete found⟩

/-! ## Demands -/

/-- A path asks for what it has always asked for, unless it has been filled. -/
theorem demand (filled : Filled overrides rule start later) (path : Path) :
    later.demand overrides path = start.demand overrides path ∨
      ∃ expr value, start.demand overrides path = .ok (.evaluate expr) ∧
        rule path value ∧
        later.demand overrides path = .ok (.ready value) := by
  rcases filled.contents path with same | ⟨expr, value, asked, ruled, found⟩
  · exact .inl (demand_congr filled.outline same)
  · have free := (demand_evaluate_iff.1 asked).1
    exact .inr ⟨expr, value, asked, ruled, demand_of_content free found⟩

theorem demand_error {error : Error}
    (filled : Filled overrides rule start later)
    (asked : later.demand overrides path = .error error) :
    start.demand overrides path = .error error := by
  rcases filled.demand path with same | ⟨_, value, -, -, ready⟩
  · rw [← same]
    exact asked
  · rw [asked] at ready
    cases ready

theorem demand_evaluate {expr : Expr}
    (filled : Filled overrides rule start later)
    (asked : later.demand overrides path = .ok (.evaluate expr)) :
    start.demand overrides path = .ok (.evaluate expr) := by
  rcases filled.demand path with same | ⟨_, value, -, -, ready⟩
  · rw [← same]
    exact asked
  · rw [asked] at ready
    cases ready

theorem demand_assemble {kind : String} {names : List String}
    (filled : Filled overrides rule start later)
    (asked : later.demand overrides path = .ok (.assemble kind names)) :
    start.demand overrides path = .ok (.assemble kind names) := by
  rcases filled.demand path with same | ⟨_, value, -, -, ready⟩
  · rw [← same]
    exact asked
  · rw [asked] at ready
    cases ready

theorem demand_ready {value : Value N}
    (filled : Filled overrides rule start later)
    (asked : later.demand overrides path = .ok (.ready value)) :
    start.demand overrides path = .ok (.ready value) ∨
      (∃ expr, start.demand overrides path = .ok (.evaluate expr)) ∧
        rule path value := by
  rcases filled.demand path with same | ⟨expr, filling, first, ruled, ready⟩
  · rw [← same]
    exact .inl asked
  · rw [asked] at ready
    cases ready
    exact .inr ⟨⟨expr, first⟩, ruled⟩

/-- Caching reaches a slot that was symbolic at the start. -/
theorem holds_cacheValue {expr : Expr} {value : Value N}
    (filled : Filled overrides rule start (later.cacheValue path value))
    (asked : start.demand overrides path = .ok (.evaluate expr)) :
    (later.cacheValue path value).Holds path := by
  have symbolic := (demand_evaluate_iff.1 asked).2
  rcases filled.contents path with same | ⟨_, filling, _, -, found⟩
  · rw [symbolic, content?_cacheValue, if_pos rfl] at same
    cases content : later.content? path with
    | none => simp [content] at same
    | some present => cases present <;> simp [content, Content.fill] at same
  · exact ⟨filling, found⟩

end Filled

theorem holds_of_ready {store : Store N} {overrides : Overrides N}
    {path : Path} {value : Value N} (free : overrides.get? path = none)
    (asked : store.demand overrides path = .ok (.ready value)) :
    store.Holds path := by
  rcases demand_ready_iff.1 asked with ⟨number, overridden, -⟩ | ⟨-, found⟩
  · rw [free] at overridden
    cases overridden
  · exact ⟨value, found⟩

/-- A store that came out of another one by filling, with whatever values. -/
abbrev Grown (overrides : Overrides N) (start later : Store N) : Prop :=
  start.Filled overrides (fun _ _ => True) later

theorem Holds.grown {overrides : Overrides N} {start later : Store N}
    {path : Path} (held : start.Holds path)
    (grown : Grown overrides start later) : later.Holds path := by
  obtain ⟨value, found⟩ := held
  exact ⟨value, grown.content?_concrete found⟩

theorem grown_cacheValue {overrides : Overrides N} {store : Store N}
    {path : Path} {value : Value N} (free : overrides.get? path = none) :
    store.Grown overrides (store.cacheValue path value) := by
  refine ⟨outline_cacheValue store path value, ?_⟩
  intro other
  rw [content?_cacheValue]
  by_cases same : other = path
  · subst same
    rw [if_pos rfl]
    cases content : store.content? other with
    | none => exact .inl rfl
    | some present =>
        cases present with
        | concrete old => exact .inl rfl
        | symbolic expr =>
            have asked := demand_of_content free content
            exact .inr ⟨expr, value, asked, trivial, rfl⟩
  · rw [if_neg same]
    exact .inl rfl

end Store

end DiagramEnergy
