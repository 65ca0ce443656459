import AgentSpeak.Proofs.Beliefs.Filing
import AgentSpeak.Proofs.Unification.Ground

namespace AgentSpeak

theorem Term.indicator?_of_beq {fact other : Term} (equal : (fact == other) = true) :
    fact.indicator? = other.indicator? := by
  have same := Term.beq_iff_canonical.mp equal
  cases fact <;> cases other <;> simp_all [canonical, indicator?]
  simpa [canonicalAll_eq_map] using congrArg List.length same.2

/-- The set of some facts: whether a term equals one of them. -/
def factSet (facts : List Term) (term : Term) : Bool :=
  facts.any (· == term)

/-- No two facts of a list are equal. -/
def DistinctFacts (facts : List Term) : Prop :=
  facts.Pairwise fun fact other => (fact == other) = false

section FactSet

variable {facts : List Term} {fact other term : Term}

@[simp] theorem factSet_nil (term : Term) : factSet [] term = false := rfl

@[simp] theorem factSet_cons (fact : Term) (facts : List Term) (term : Term) :
    factSet (fact :: facts) term = (fact == term || factSet facts term) := rfl

@[simp] theorem factSet_append (facts others : List Term) (term : Term) :
    factSet (facts ++ others) term = (factSet facts term || factSet others term) :=
  List.any_append

theorem factSet_eq_true_iff : factSet facts term = true ↔ ∃ fact ∈ facts, (fact == term) = true :=
  List.any_eq_true

theorem factSet_eq_false_iff :
    factSet facts term = false ↔ ∀ fact ∈ facts, (fact == term) = false := by
  simp [factSet]

theorem factSet_of_mem (member : fact ∈ facts) : factSet facts fact = true :=
  factSet_eq_true_iff.mpr ⟨fact, member, BEq.rfl⟩

theorem factSet_congr (facts : List Term) (equal : (fact == other) = true) :
    factSet facts fact = factSet facts other :=
  congrArg (facts.any ·) (funext fun _ => BEq.congr_right equal)

/-- The facts that satisfy a test which equal terms share. -/
theorem factSet_filter {keeps : Term → Bool}
    (shared : ∀ fact other, (fact == other) = true → keeps fact = keeps other)
    (facts : List Term) (term : Term) :
    factSet (facts.filter keeps) term = (factSet facts term && keeps term) := by
  induction facts with
  | nil => rfl
  | cons fact rest ih =>
    rw [List.filter_cons, factSet_cons]
    by_cases equal : (fact == term) = true
    · have same := shared fact term equal
      cases kept : keeps term <;> simp_all
    · split <;> simp_all

/-- A fact of its own, taken out from among the others. -/
theorem DistinctFacts.factSet_without {before behind : List Term}
    (distinct : DistinctFacts (before ++ fact :: behind)) (term : Term) :
    factSet (before ++ behind) term =
      (factSet (before ++ fact :: behind) term && !(fact == term)) := by
  by_cases equal : (fact == term) = true
  · obtain ⟨-, tail, apart⟩ := List.pairwise_append.mp distinct
    have none : factSet (before ++ behind) fact = false := by
      rw [factSet_eq_false_iff]
      intro other member
      rcases List.mem_append.mp member with early | late
      · exact apart other early fact List.mem_cons_self
      · rw [BEq.comm]
        exact (List.pairwise_cons.mp tail).1 other late
    rw [← factSet_congr _ equal, none, equal]
    simp
  · simp [Bool.eq_false_iff.mpr equal]

end FactSet

namespace BeliefBase

variable {base after : BeliefBase} {fact pattern term : Term} {items : List Term}

/-- The base is ordered, and none of its facts is there twice. -/
structure IsSet (base : BeliefBase) : Prop extends base.Ordered where
  distinct : ∀ key, DistinctFacts (base.groups.get key)

theorem isSet_empty : empty.IsSet :=
  ⟨ordered_empty, fun _ => List.Pairwise.nil⟩

theorem IsSet.factsLike (set : base.IsSet) (term : Term) : DistinctFacts (base.factsLike term) := by
  unfold BeliefBase.factsLike
  split
  next key filed => exact set.distinct key
  next => exact List.Pairwise.nil

/-- A base contains what equals one of its facts. -/
theorem Ordered.contains_eq (ordered : base.Ordered) (term : Term) :
    base.contains term = factSet base.facts term := by
  rw [Bool.eq_iff_iff, contains, List.any_eq_true, factSet_eq_true_iff]
  constructor
  · rintro ⟨fact, member, equal⟩
    exact ⟨fact, (ordered.mem_factsLike member).1, equal⟩
  · rintro ⟨fact, member, equal⟩
    obtain ⟨key, filed⟩ := ordered.facts.exists_key member
    have alike := (Term.indicator?_of_beq equal).symm.trans filed
    refine ⟨fact, ?_, equal⟩
    rw [BeliefBase.factsLike, alike]
    exact ordered.mem_get_iff.mpr ⟨member, filed⟩

theorem Ordered.factSet_facts (ordered : base.Ordered) : factSet base.facts = base.contains :=
  funext fun term => (ordered.contains_eq term).symm

theorem Ordered.contains_of_mem (ordered : base.Ordered) (member : fact ∈ base.facts) :
    base.contains fact = true := by
  rw [ordered.contains_eq]
  exact factSet_of_mem member

theorem Ordered.contains_congr (ordered : base.Ordered) {other : Term}
    (equal : (fact == other) = true) : base.contains fact = base.contains other := by
  rw [ordered.contains_eq, ordered.contains_eq, factSet_congr _ equal]

theorem contains_put (base : BeliefBase) (key : Indicator) (items : List Term) (term : Term) :
    contains { base with groups := base.groups.put key items } term =
      if term.indicator? = some key then factSet items term else base.contains term := by
  unfold contains BeliefBase.factsLike
  cases filed : term.indicator? with
  | none => rfl
  | some other =>
    simp only [Groups.get_put, Option.some.injEq]
    split <;> rfl

theorem IsSet.put (set : base.IsSet) {key : Indicator}
    (own : ∀ fact ∈ items, fact.indicator? = some key ∧ fact.isGround = true)
    (distinct : DistinctFacts items) :
    IsSet { base with groups := base.groups.put key items } := by
  refine ⟨set.toOrdered.put own, fun other => ?_⟩
  rw [Groups.get_put]
  split
  next => exact distinct
  next => exact set.distinct other

/-- Fewer facts in the group of a pattern. -/
theorem IsSet.withFactsLike (set : base.IsSet) (kept : items.Sublist (base.factsLike pattern)) :
    (base.withFactsLike pattern items).IsSet := by
  have distinct := (set.factsLike pattern).sublist kept
  refine ⟨set.toOrdered.withFactsLike fun fact member => kept.subset member, fun other => ?_⟩
  unfold BeliefBase.withFactsLike
  split
  next key filed =>
    rw [Groups.get_put]
    split
    next => exact distinct
    next => exact set.distinct other
  next => exact set.distinct other

/-- Without some facts like a pattern, the base contains what it contained before except for
these. -/
theorem Ordered.contains_withFactsLike (ordered : base.Ordered) {removed : List Term}
    (alike : ∀ fact ∈ removed, fact ∈ base.factsLike pattern)
    (left : ∀ term, factSet items term =
      (factSet (base.factsLike pattern) term && !factSet removed term)) (term : Term) :
    (base.withFactsLike pattern items).contains term =
      (base.contains term && !factSet removed term) := by
  have other (apart : term.indicator? ≠ pattern.indicator?) : factSet removed term = false := by
    rw [factSet_eq_false_iff]
    intro fact member
    rw [Bool.eq_false_iff]
    intro equal
    exact apart ((Term.indicator?_of_beq equal).symm.trans
      (ordered.mem_factsLike (alike fact member)).2)
  unfold BeliefBase.withFactsLike
  split
  next key filed =>
    rw [contains_put]
    split
    next same =>
      have group : base.factsLike pattern = base.factsLike term := by
        rw [BeliefBase.factsLike, BeliefBase.factsLike, filed, same]
      rw [left, group]
      rfl
    next different => rw [other (filed ▸ different), Bool.not_false, Bool.and_true]
  next filed =>
    have none : removed = [] := by
      rw [List.eq_nil_iff_forall_not_mem]
      intro fact member
      have inside := alike fact member
      rw [BeliefBase.factsLike, filed] at inside
      cases inside
    simp [none]

/-- A fact is new if it was not there, and then it is. -/
theorem IsSet.assert (set : base.IsSet) {new : Bool}
    (done : base.assert fact = .ok (new, after)) :
    after.IsSet ∧ new = !base.contains fact ∧
      ∀ term, after.contains term = (base.contains term || fact == term) := by
  obtain ⟨key, filed, rest⟩ := bind_eq_ok_iff.mp done
  obtain ⟨under, ground⟩ := filing_ok filed
  have group : base.groups.get key = base.factsLike fact := by
    rw [BeliefBase.factsLike, under]
  split at rest
  next old =>
    cases rest
    refine ⟨set, by rw [old]; rfl, fun term => ?_⟩
    by_cases equal : (fact == term) = true
    · rw [← set.contains_congr equal, old, Bool.true_or]
    · rw [Bool.eq_false_iff.mpr equal, Bool.or_false]
  next absent =>
    cases rest
    have missing := Bool.eq_false_iff.mpr absent
    refine ⟨set.put ?_ ?_, by rw [missing]; rfl, fun term => ?_⟩
    · intro other member
      rcases List.mem_append.mp member with old | last
      · obtain ⟨believed, own⟩ := set.mem_get_iff.mp old
        exact ⟨own, set.ground other believed⟩
      · rw [List.mem_singleton.mp last]
        exact ⟨under, ground⟩
    · refine List.pairwise_append.mpr ⟨set.distinct key, List.pairwise_singleton .., ?_⟩
      intro other member last same
      rw [List.mem_singleton.mp same]
      exact factSet_eq_false_iff.mp missing other (group ▸ member)
    · rw [Groups.push, contains_put]
      split
      next same =>
        rw [factSet_append, factSet_cons, factSet_nil, Bool.or_false, contains,
          BeliefBase.factsLike, same]
        rfl
      next different =>
        have apart : (fact == term) = false := by
          rw [Bool.eq_false_iff]
          intro equal
          exact different ((Term.indicator?_of_beq equal).symm.trans under)
        rw [apart, Bool.or_false]

theorem indicator?_anyLike (fact : Term) : (anyLike fact).indicator? = fact.indicator? := by
  unfold anyLike
  split
  next functor first rest => simp [Term.indicator?]
  next => rfl

theorem retract_fst (base : BeliefBase) (occursCheck : Bool) (pattern : Term) :
    (base.retract occursCheck pattern).1 =
      (base.factsLike pattern).filter (isInstance occursCheck pattern) := by
  unfold BeliefBase.retract
  dsimp only
  split
  next none => exact (List.isEmpty_iff.mp none).symm
  next => rfl

/-- What is retracted was there, each fact once, and is there no more. -/
theorem IsSet.retract (set : base.IsSet) (occursCheck : Bool) (pattern : Term) :
    (base.retract occursCheck pattern).2.IsSet ∧
      DistinctFacts (base.retract occursCheck pattern).1 ∧
      (∀ fact ∈ (base.retract occursCheck pattern).1, fact ∈ base.facts) ∧
      ∀ term, (base.retract occursCheck pattern).2.contains term =
        (base.contains term && !factSet (base.retract occursCheck pattern).1 term) := by
  rw [retract_fst]
  have inside : ∀ fact ∈ (base.factsLike pattern).filter (isInstance occursCheck pattern),
      fact ∈ base.factsLike pattern := fun fact member => (List.mem_filter.mp member).1
  refine ⟨?_, (set.factsLike pattern).filter _,
    fun fact member => (set.mem_factsLike (inside fact member)).1, ?_⟩
  · unfold BeliefBase.retract
    dsimp only
    split
    next => exact set
    next => exact set.withFactsLike List.filter_sublist
  · intro term
    unfold BeliefBase.retract
    dsimp only
    split
    next none => simp [List.isEmpty_iff.mp none]
    next =>
      refine set.contains_withFactsLike inside (fun term => ?_) term
      exact factSet_filter (fun fact other equal => congrArg _ (factSet_congr _ equal)) _ _

/-- The fact that is split off divides the facts, and none of those before it matches. -/
theorem splitFirst?_split {occursCheck : Bool} {θ θ' : Substitution} {facts others : List Term}
    (found : splitFirst? occursCheck pattern θ facts = some (fact, θ', others)) :
    ∃ before behind, facts = before ++ fact :: behind ∧ others = before ++ behind ∧
      ∀ earlier ∈ before, θ.unify? occursCheck pattern earlier = none := by
  induction facts generalizing others with
  | nil => cases found
  | cons first rest ih =>
    unfold splitFirst? at found
    split at found
    next =>
      cases found
      exact ⟨[], rest, rfl, rfl, fun _ member => nomatch member⟩
    next failed =>
      obtain ⟨⟨chosen, extended, left⟩, later, same⟩ := Option.map_eq_some_iff.mp found
      cases same
      obtain ⟨before, behind, split, remaining, earlier⟩ := ih later
      refine ⟨first :: before, behind, by rw [split]; rfl, by rw [remaining]; rfl, ?_⟩
      exact List.forall_mem_cons.mpr ⟨failed, earlier⟩

/-- The fact that is removed was there and matched, and it is there no more. -/
theorem IsSet.remove? (set : base.IsSet) {occursCheck : Bool} {θ θ' : Substitution}
    (done : base.remove? occursCheck pattern θ = some (fact, θ', after)) :
    after.IsSet ∧ fact ∈ base.facts ∧ θ.unify? occursCheck pattern fact = some θ' ∧
      ∀ term, after.contains term = (base.contains term && !(fact == term)) := by
  obtain ⟨⟨chosen, extended, others⟩, found, same⟩ := Option.map_eq_some_iff.mp done
  cases same
  obtain ⟨before, behind, split, remaining, -⟩ := splitFirst?_split found
  have distinct := set.factsLike (θ.walk pattern)
  have inside : fact ∈ base.factsLike (θ.walk pattern) := by
    rw [split]
    exact List.mem_append_right _ List.mem_cons_self
  refine ⟨set.withFactsLike ?_, (set.mem_factsLike inside).1, (splitFirst?_some found).2.1,
    fun term => ?_⟩
  · rw [split, remaining]
    exact (List.sublist_cons_self fact behind).append_left before
  · rw [set.contains_withFactsLike (List.forall_mem_singleton.mpr inside)]
    · simp
    · intro term
      rw [split] at distinct ⊢
      rw [remaining, distinct.factSet_without]
      simp

/-- A fact that is there is among those that are retracted to make room for it. -/
theorem IsSet.cleared (set : base.IsSet) (occursCheck : Bool) (old : base.contains fact = true) :
    factSet (base.retract occursCheck (anyLike fact)).1 fact = true := by
  obtain ⟨other, member, equal⟩ := List.any_eq_true.mp old
  have alike : base.factsLike (anyLike fact) = base.factsLike fact := by
    rw [BeliefBase.factsLike, BeliefBase.factsLike, indicator?_anyLike]
  have ground := set.ground other (set.mem_factsLike member).1
  refine factSet_eq_true_iff.mpr ⟨other, ?_, equal⟩
  rw [retract_fst, alike]
  exact List.mem_filter.mpr ⟨member, isInstance_anyLike occursCheck ground equal⟩

theorem IsSet.asserting (set : base.IsSet) (fact : Term) : (base.asserting fact).base.IsSet :=
  asserting_base set fun _ _ done => (set.assert done).1

theorem IsSet.retracting (set : base.IsSet) (occursCheck : Bool) (pattern : Term) :
    (base.retracting occursCheck pattern).base.IsSet :=
  (set.retract occursCheck pattern).1

theorem IsSet.removing (set : base.IsSet) (occursCheck : Bool) (pattern : Term)
    (θ : Substitution) : (base.removing occursCheck pattern θ).base.IsSet :=
  removing_base set fun _ _ _ done => (set.remove? done).1

theorem IsSet.replacing (set : base.IsSet) (occursCheck : Bool) (fact : Term) :
    (base.replacing occursCheck fact).base.IsSet := by
  have cleared := (set.retract occursCheck (anyLike fact)).1
  exact replacing_base set cleared fun _ _ done => (cleared.assert done).1

/-- Rules change nothing about the facts. -/
theorem IsSet.addRules (set : base.IsSet) (rules : List Rule) :
    (rules.foldl addRule base).IsSet ∧ (rules.foldl addRule base).facts = base.facts := by
  induction rules generalizing base with
  | nil => exact ⟨set, rfl⟩
  | cons rule rest ih =>
    have same : (base.addRule rule).groups = base.groups := by
      unfold addRule
      split <;> rfl
    have next : (base.addRule rule).IsSet :=
      ⟨set.toOrdered.addRule rule, fun key => same ▸ set.distinct key⟩
    obtain ⟨later, kept⟩ := ih next
    refine ⟨later, kept.trans ?_⟩
    rw [BeliefBase.facts, BeliefBase.facts, same]

end BeliefBase

end AgentSpeak
