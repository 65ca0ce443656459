import AgentSpeak.Beliefs.Solver

/-!
Searches under two limits of depth. The one with the lower limit goes the same way as the other until
it comes to a goal that is too deep for it. There it fails, and no negation, disjunction or conjunction
takes that for a goal without answers.
-/

namespace AgentSpeak

namespace Search

/-- The second search goes the way of the first one, and beyond where that finds a goal too deep. -/
inductive Deepens : Search → Search → Prop where
  | done : Deepens .done .done
  | failed (fault : Fault) : Deepens (.failed fault) (.failed fault)
  | cut (limit : Int) (goal : Term) (deep : Search) : Deepens (.failed (.tooDeep limit goal)) deep
  | answer (θ : Substitution) (others : Deepens (rest ()) (rest' ())) :
      Deepens (.answer θ rest) (.answer θ rest')
  | facts (key : Indicator) (each : ∀ facts, Deepens (next facts) (next' facts)) :
      Deepens (.facts key next) (.facts key next')
  | rules (key : Indicator) (each : ∀ rules, Deepens (next rules) (next' rules)) :
      Deepens (.rules key next) (.rules key next')
  | fresh (each : ∀ n, Deepens (next n) (next' n)) : Deepens (.fresh next) (.fresh next')

variable {shallow deep : Search} {θ : Substitution} {occursCheck : Bool} {literal : Term}

theorem Deepens.refl (search : Search) : Deepens search search := by
  induction search with
  | done => exact .done
  | failed fault => exact .failed fault
  | answer θ rest ih => exact .answer θ (ih ())
  | facts key next ih => exact .facts key ih
  | rules key next ih => exact .rules key ih
  | fresh next ih => exact .fresh ih

theorem Deepens.append {others others' : Unit → Search} (first : Deepens shallow deep)
    (second : Deepens (others ()) (others' ())) :
    Deepens (shallow.append others) (deep.append others') := by
  induction first with
  | done => exact second
  | failed fault => exact .failed fault
  | cut limit goal deep => exact .cut limit goal _
  | answer θ _ ih => exact .answer θ ih
  | facts key _ ih => exact .facts key ih
  | rules key _ ih => exact .rules key ih
  | fresh _ ih => exact .fresh ih

theorem Deepens.bind {second second' : Substitution → Search} (first : Deepens shallow deep)
    (each : ∀ θ, Deepens (second θ) (second' θ)) :
    Deepens (shallow.bind second) (deep.bind second') := by
  induction first with
  | done => exact .done
  | failed fault => exact .failed fault
  | cut limit goal deep => exact .cut limit goal _
  | answer θ _ ih => exact (each θ).append ih
  | facts key _ ih => exact .facts key ih
  | rules key _ ih => exact .rules key ih
  | fresh _ ih => exact .fresh ih

/-- A goal that is too deep is not refuted: the negation fails with it. -/
theorem Deepens.refute (first : Deepens shallow deep) (θ : Substitution) :
    Deepens (shallow.refute θ) (deep.refute θ) := by
  induction first with
  | done => exact .refl _
  | failed fault => exact .failed fault
  | cut limit goal deep => exact .cut limit goal _
  | answer => exact .done
  | facts key _ ih => exact .facts key ih
  | rules key _ ih => exact .rules key ih
  | fresh _ ih => exact .fresh ih

section Solving

variable {prove prove' : Formula → Substitution → Search} {ask ask' : Term → Substitution → Search}

theorem deepens_applying (proves : ∀ formula θ, Deepens (prove formula θ) (prove' formula θ))
    (rules : List Rule) :
    Deepens (applying occursCheck prove literal θ rules)
      (applying occursCheck prove' literal θ rules) := by
  induction rules with
  | nil => exact .done
  | cons rule rest ih =>
    rw [applying, applying]
    refine .fresh fun n => ?_
    dsimp only
    split
    next extended _ => exact (proves _ extended).append ih
    next => exact ih

theorem deepens_asking (proves : ∀ formula θ, Deepens (prove formula θ) (prove' formula θ))
    (literal : Term) (θ : Substitution) :
    Deepens (asking occursCheck prove literal θ) (asking occursCheck prove' literal θ) := by
  unfold asking
  split
  next => exact .refl _
  next => exact .refl _
  next =>
    split
    next => exact .failed _
    next key _ =>
      refine .facts key fun facts => (Deepens.refl _).append ?_
      exact .rules key (deepens_applying proves)

theorem deepens_solvingWith (asks : ∀ literal θ, Deepens (ask literal θ) (ask' literal θ))
    (formula : Formula) (θ : Substitution) :
    Deepens (solvingWith occursCheck ask formula θ) (solvingWith occursCheck ask' formula θ) := by
  induction formula generalizing θ with
  | literal term => exact asks term θ
  | negation formula ih => exact (ih θ).refute θ
  | conjunction left right ihLeft ihRight => exact (ihLeft θ).bind ihRight
  | disjunction left right ihLeft ihRight => exact (ihLeft θ).append (ihRight θ)
  | comparison relation left right => exact .refl _

/-- Where fewer levels are left, a search goes the way of the one that has more of them. -/
theorem deepens_queryWithin (limits : Limits) (d : Int) {levels more : Nat} (le : levels ≤ more)
    (literal : Term) (θ : Substitution) :
    Deepens (queryWithin limits levels literal θ)
      (queryWithin { limits with maxDepth := d } more literal θ) := by
  induction levels generalizing more literal θ with
  | zero => exact .cut _ _ _
  | succ levels ih =>
    obtain ⟨more, rfl⟩ := Nat.exists_eq_add_of_le' (Nat.le_trans (Nat.le_add_left 1 levels) le)
    refine deepens_asking (fun formula θ => ?_) literal θ
    exact deepens_solvingWith (ih (Nat.le_of_succ_le_succ le)) formula θ

theorem deepens_solve (limits : Limits) {d : Int} (deeper : limits.maxDepth ≤ d) (formula : Formula)
    (θ : Substitution) :
    Deepens (solve limits formula θ) (solve { limits with maxDepth := d } formula θ) :=
  deepens_solvingWith (deepens_queryWithin limits d <|
    Int.toNat_le_toNat (Int.add_le_add_right deeper 1)) formula θ

end Solving

end Search

/-- Whether a search ended at its limit of depth. -/
def Fault.isCut : Fault → Bool
  | tooDeep .. => true
  | _ => false

namespace BeliefBase

open Search

variable {shallow deep : Search}

/-- Both searches give the same answers and end in the same way, or the first one is cut off. -/
theorem all_of_deepens (deepens : Deepens shallow deep) (base : BeliefBase) :
    base.all deep = base.all shallow ∨
      (base.all shallow).1 <+: (base.all deep).1 ∧
        ∃ limit goal, (base.all shallow).2.1 = some (.tooDeep limit goal) := by
  induction deepens generalizing base with
  | done => exact .inl rfl
  | failed fault => exact .inl rfl
  | cut limit goal deep => exact .inr ⟨List.nil_prefix, limit, goal, rfl⟩
  | answer θ _ ih =>
    rcases ih base with same | ⟨before, cut⟩
    · simp only [all, same, true_or]
    · exact .inr ⟨List.cons_prefix_cons.mpr ⟨rfl, before⟩, cut⟩
  | facts key _ ih => exact ih _ base
  | rules key _ ih => exact ih _ base
  | fresh _ ih => exact ih _ _

/-- A higher limit of depth changes no answer. Unless a search is cut off at its limit, it gives the
same answers in the same order under every higher limit, and ends in the same way. If it is, then what
it has found until then is the beginning of what is found there. -/
theorem all_solve_deeper (base : BeliefBase) (formula : Formula) (θ : Substitution)
    (limits : Limits) {d : Int} (deeper : limits.maxDepth ≤ d) :
    let shallow := base.all (Search.solve limits formula θ)
    let deep := base.all (Search.solve { limits with maxDepth := d } formula θ)
    (shallow.2.1.any Fault.isCut = false → deep = shallow) ∧
      (shallow.2.1.any Fault.isCut = true → shallow.1 <+: deep.1) := by
  intro shallow deep
  rcases all_of_deepens (deepens_solve limits deeper formula θ) base with same | ⟨before, cut⟩
  · have alike : deep = shallow := same
    exact ⟨fun _ => alike, fun _ => alike ▸ List.prefix_rfl⟩
  · obtain ⟨limit, goal, cut⟩ := cut
    have ended : shallow.2.1 = some (.tooDeep limit goal) := cut
    refine ⟨fun other => ?_, fun _ => before⟩
    rw [ended] at other
    cases other

/-- The rules `p :- N = 10 ** 5000 & q(N).` and `q(X).` -/
def powers : BeliefBase :=
  let power : Term := .compound "**" [.number (.int 10), .number (.int 5000)]
  [⟨.atom "p", .conjunction (.comparison .unify (.var ⟨"N", []⟩) power)
      (.literal (.compound "q" [.var ⟨"N", []⟩]))⟩,
    ⟨.compound "q" [.var ⟨"X", []⟩], .literal .truth⟩].foldl addRule empty

/-- A search that is cut off at a goal without a text does not end as a search that is cut off
elsewhere: the fault is one of values and not of resolution. -/
theorem powers_cut :
    let found (d : Int) := powers.all (Search.solve ⟨d, 0, false⟩ (.literal (.atom "p")) .empty)
    (found 0).2.1.map Fault.kind = some .value ∧ (found 0).1.length = 0 ∧
      (found 2).2.1.map Fault.kind = none ∧ (found 2).1.length = 1 := by
  decide +kernel

/-- The base `numeral(zero). numeral(next(N)) :- numeral(N).`, which has no last numeral. -/
def numerals : BeliefBase :=
  addRule ⟨[(⟨"numeral", 1⟩, [.compound "numeral" [.atom "zero"]])], [], 0⟩
    ⟨.compound "numeral" [.compound "next" [.var ⟨"N", []⟩]],
      .literal (.compound "numeral" [.var ⟨"N", []⟩])⟩

/-- Down to level 1 two numerals are found, which are the first ones of those found down to level 2.
Whether `zero` is a numeral is decided at level 0, and in the same way at level 5. -/
theorem all_solve_deeper_numerals :
    let found (d : Int) (argument : Term) := numerals.all
      (Search.solve ⟨d, 0, true⟩ (.literal (.compound "numeral" [argument])) .empty)
    (found 1 (.var ⟨"A", []⟩)).1.length = 2 ∧
      (found 1 (.var ⟨"A", []⟩)).1 <+: (found 2 (.var ⟨"A", []⟩)).1 ∧
      found 5 (.atom "zero") = found 0 (.atom "zero") := by
  intro found
  refine ⟨by decide +kernel, ?_, ?_⟩
  · exact (all_solve_deeper numerals (.literal (.compound "numeral" [.var ⟨"A", []⟩])) .empty
      ⟨1, 0, true⟩ (show (1 : Int) ≤ 2 by decide)).2 (by decide +kernel)
  · exact (all_solve_deeper numerals (.literal (.compound "numeral" [.atom "zero"])) .empty
      ⟨0, 0, true⟩ (show (0 : Int) ≤ 5 by decide)).1 (by decide +kernel)

end BeliefBase

end AgentSpeak
