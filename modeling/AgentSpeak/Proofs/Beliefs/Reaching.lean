import AgentSpeak.Proofs.Beliefs.Filing
import AgentSpeak.Beliefs.Solver

namespace AgentSpeak

namespace Search

variable {facts : Groups Term} {rules : Groups Rule} {reached other : Nat → Substitution → Prop}
  {search : Search} {n : Nat} {literal : Term} {θ : Substitution} {occursCheck : Bool}

/-- After `n` renamings a search fails or comes to an answer with a property, however many renamings
happen between its answers. -/
def Reaches (facts : Groups Term) (rules : Groups Rule) (reached : Nat → Substitution → Prop) :
    Nat → Search → Prop
  | _, .done => False
  | _, .failed _ => True
  | n, .answer θ rest => reached n θ ∨ ∀ m, n ≤ m → Reaches facts rules reached m (rest ())
  | n, .facts key next => Reaches facts rules reached n (next (facts.get key))
  | n, .rules key next => Reaches facts rules reached n (next (rules.get key))
  | n, .fresh next => Reaches facts rules reached (n + 1) (next (n + 1))

theorem Reaches.mono (search : Search) (reaches : Reaches facts rules reached n search)
    (weaker : ∀ m θ, n ≤ m → reached m θ → other m θ) : Reaches facts rules other n search := by
  induction search generalizing n with
  | done => exact reaches
  | failed fault => trivial
  | answer θ rest ih =>
    rcases reaches with here | later
    · exact .inl (weaker n θ (Nat.le_refl n) here)
    · exact .inr fun m after => ih () (later m after)
        fun k θ further => weaker k θ (Nat.le_trans after further)
  | facts key next ih => exact ih _ reaches weaker
  | rules key next ih => exact ih _ reaches weaker
  | fresh next ih =>
    exact ih _ reaches fun m θ after => weaker m θ (Nat.le_of_succ_le after)

theorem Reaches.append_left {second : Unit → Search}
    (reaches : Reaches facts rules reached n search) :
    Reaches facts rules reached n (search.append second) := by
  induction search generalizing n with
  | done => exact reaches.elim
  | failed fault => trivial
  | answer θ rest ih => exact reaches.imp id fun later m after => ih () (later m after)
  | facts key next ih => exact ih _ reaches
  | rules key next ih => exact ih _ reaches
  | fresh next ih => exact ih _ reaches

theorem reaches_append_right (search : Search) {second : Unit → Search}
    (reaches : ∀ m, n ≤ m → Reaches facts rules reached m (second ())) :
    Reaches facts rules reached n (search.append second) := by
  induction search generalizing n with
  | done => exact reaches n (Nat.le_refl n)
  | failed fault => trivial
  | answer θ rest ih =>
    exact .inr fun m after => ih () fun k further => reaches k (Nat.le_trans after further)
  | facts key next ih => exact ih _ reaches
  | rules key next ih => exact ih _ reaches
  | fresh next ih => exact ih _ fun m after => reaches m (Nat.le_of_succ_le after)

theorem Reaches.bind {second : Substitution → Search} (search : Search)
    (reaches : Reaches facts rules other n search)
    (each : ∀ m θ, n ≤ m → other m θ → Reaches facts rules reached m (second θ)) :
    Reaches facts rules reached n (search.bind second) := by
  induction search generalizing n with
  | done => exact reaches.elim
  | failed fault => trivial
  | answer θ rest ih =>
    rcases reaches with here | later
    · exact (each n θ (Nat.le_refl n) here).append_left
    · exact reaches_append_right _ fun m after => ih () (later m after)
        fun k θ further => each k θ (Nat.le_trans after further)
  | facts key next ih => exact ih _ reaches each
  | rules key next ih => exact ih _ reaches each
  | fresh next ih =>
    exact ih _ reaches fun m θ after => each m θ (Nat.le_of_succ_le after)

theorem reaches_matching {items : List Term} {fact : Term} {θ' : Substitution}
    (member : fact ∈ items) (found : θ.unify? occursCheck literal fact = some θ')
    (own : ∀ m, n ≤ m → reached m θ') :
    Reaches facts rules reached n (matching occursCheck literal θ items) := by
  induction items generalizing n with
  | nil => cases member
  | cons item rest ih =>
    unfold matching
    rcases List.mem_cons.mp member with same | later
    · rw [← same, found]
      exact .inl (own n (Nat.le_refl n))
    · split
      next =>
        exact .inr fun m after => ih later fun k further => own k (Nat.le_trans after further)
      next => exact ih later own

theorem reaches_applying {prove : Formula → Substitution → Search} {items : List Rule}
    {rule : Rule} (member : rule ∈ items)
    (own : ∀ m : Nat, n < m → ∃ θ',
      θ.unify? occursCheck literal (rule.mark [toString m]).head = some θ' ∧
        Reaches facts rules reached m (prove (rule.mark [toString m]).body θ')) :
    Reaches facts rules reached n (applying occursCheck prove literal θ items) := by
  induction items generalizing n with
  | nil => cases member
  | cons item rest ih =>
    unfold applying
    show Reaches facts rules reached (n + 1) _
    rcases List.mem_cons.mp member with same | later
    · obtain ⟨θ', found, body⟩ := own (n + 1) (Nat.lt_succ_self n)
      simp only [← same, found]
      exact body.append_left
    · simp only
      split
      next =>
        exact reaches_append_right _ fun m after => ih later fun k further =>
          own k (by omega)
      next => exact ih later fun m after => own m (Nat.lt_of_succ_lt after)

theorem asking_filed {prove : Formula → Substitution → Search} {key : Indicator}
    (filed : (θ.walk literal).indicator? = some key) (notTruth : θ.walk literal ≠ Term.truth)
    (notFalsity : θ.walk literal ≠ Term.falsity) :
    asking occursCheck prove literal θ =
      .facts key fun items =>
        (matching occursCheck (θ.walk literal) θ items).append fun _ =>
          .rules key (applying occursCheck prove (θ.walk literal) θ) := by
  unfold asking
  split
  next same => exact absurd same notTruth
  next same => exact absurd same notFalsity
  next => rw [filed]

/-- A question reads the facts of its name and arity, and behind their answers the rules. -/
theorem query_filed (limits : Limits) {key : Indicator}
    (filed : (θ.walk literal).indicator? = some key) (notTruth : θ.walk literal ≠ Term.truth)
    (notFalsity : θ.walk literal ≠ Term.falsity) :
    ∃ prove, query limits literal θ =
      if limits.maxDepth < 0 then .failed (.tooDeep limits.maxDepth (θ.apply literal))
      else
        .facts key fun items =>
          (matching limits.occursCheck (θ.walk literal) θ items).append fun _ =>
            .rules key (applying limits.occursCheck prove (θ.walk literal) θ) := by
  by_cases negative : limits.maxDepth < 0
  · have none : (limits.maxDepth + 1).toNat = 0 := by omega
    refine ⟨fun _ _ => .done, ?_⟩
    rw [if_pos negative, query, none, queryWithin]
  · obtain ⟨levels, succ⟩ : ∃ levels, (limits.maxDepth + 1).toNat = levels + 1 :=
      ⟨limits.maxDepth.toNat, by omega⟩
    refine ⟨solvingWith limits.occursCheck (queryWithin limits levels), ?_⟩
    rw [if_neg negative, query, succ, queryWithin, asking_filed filed notTruth notFalsity]

/-- An answer to a literal by a fact or by a rule, whichever number the rule is renamed with. -/
theorem reaches_asking {prove : Formula → Substitution → Search} {key : Indicator}
    (filed : (θ.walk literal).indicator? = some key) (notTruth : θ.walk literal ≠ Term.truth)
    (notFalsity : θ.walk literal ≠ Term.falsity)
    (reason :
      (∃ fact ∈ facts.get key, ∃ θ', θ.unify? occursCheck (θ.walk literal) fact = some θ' ∧
        ∀ m, n ≤ m → reached m θ') ∨
      ∃ rule ∈ rules.get key, ∀ m : Nat, n < m → ∃ θ',
        θ.unify? occursCheck (θ.walk literal) (rule.mark [toString m]).head = some θ' ∧
          Reaches facts rules reached m (prove (rule.mark [toString m]).body θ')) :
    Reaches facts rules reached n (asking occursCheck prove literal θ) := by
  rw [asking_filed filed notTruth notFalsity]
  rcases reason with ⟨fact, member, θ', found, own⟩ | ⟨rule, member, own⟩
  · exact (reaches_matching member found own).append_left
  · exact reaches_append_right _ fun m after =>
      reaches_applying member fun k further => own k (by omega)

end Search

namespace BeliefBase

variable {base : BeliefBase} {search : Search} {reached : Nat → Substitution → Prop}

/-- A search for all answers that does not fail finds what it is bound to come to. -/
theorem exists_answer_of_reaches
    (reaches : Search.Reaches base.groups base.ruleGroups reached base.renamings search)
    (complete : (base.all search).2.1 = none) :
    ∃ θ ∈ (base.all search).1, ∃ m, base.renamings ≤ m ∧ reached m θ := by
  induction search generalizing base with
  | done => exact reaches.elim
  | failed fault => cases complete
  | answer θ rest ih =>
    rcases reaches with here | later
    · exact ⟨θ, List.mem_cons_self, base.renamings, Nat.le_refl _, here⟩
    · obtain ⟨θ', member, found⟩ := ih () (later _ (Nat.le_refl _)) complete
      exact ⟨θ', List.mem_cons_of_mem _ member, found⟩
  | facts key next ih => exact ih _ reaches complete
  | rules key next ih => exact ih _ reaches complete
  | fresh next ih =>
    obtain ⟨θ, member, m, after, found⟩ :=
      @ih (base.renamings + 1) { base with renamings := base.renamings + 1 } reaches
        complete
    exact ⟨θ, member, m, Nat.le_of_succ_le after, found⟩

end BeliefBase

end AgentSpeak
