import AgentSpeak.Proofs.Variants.Clauses

namespace AgentSpeak

theorem Fault.Alike.of_kind {fault other : Fault} (same : other.kind = fault.kind) :
    fault.Alike False other :=
  ⟨same, False.elim⟩

namespace BeliefBase

section Answering

variable {texts : Prop} {base other : BeliefBase} {stage : Stage texts} {search search' : Search}

theorem first_snd (base : BeliefBase) (search : Search) :
    (base.first search).2 = (base.next search).2 := by
  unfold first
  split <;> simp_all

theorem answers_snd (base : BeliefBase) (search : Search) :
    (base.answers search).2 = (base.all search).2.2 := by
  unfold answers
  split <;> simp_all

/-- Corresponding searches find corresponding answers, and either both end or both fail. -/
theorem Varies.all (bases : base.Varies texts other) (varies : search.Varies stage search')
    (fits : stage.Fits base other) :
    ∃ later, stage.Leads later ∧ later.Fits (base.all search).2.2 (other.all search').2.2 ∧
      List.Forall₂ later.Bindings (base.all search).1 (other.all search').1 ∧
      Option.Rel (Fault.Alike texts) (base.all search).2.1 (other.all search').2.1 := by
  induction varies generalizing base other with
  | done => exact ⟨_, .refl _, fits, .nil, .none⟩
  | failed alike => exact ⟨_, .refl _, fits, .nil, .some alike⟩
  | answer inside more ih =>
    obtain ⟨later, leads, laterFits, others, faults⟩ := ih _ (.refl _) bases fits
    exact ⟨later, leads, laterFits, .cons (leads.keeps.bindings ⟨inside, rfl⟩) others, faults⟩
  | @facts _ _ _ key each ih =>
    have same : other.groups.get key = base.groups.get key := by rw [bases.groups]
    have own := ih (base.groups.get key) (bases.ordered.ground_get key) bases fits
    rw [BeliefBase.all, BeliefBase.all, same]
    exact own
  | rules each ih => exact ih _ _ (bases.rules _) bases fits
  | fresh source written each ih =>
    have after := Nat.lt_succ_of_le fits.count
    have after' := Nat.lt_succ_of_le fits.count'
    obtain ⟨later, leads, own⟩ := ih _ _ _ (.refl _) after after'
      (bases.renamed (base.renamings + 1) (other.renamings + 1)) ⟨Nat.le_refl _, Nat.le_refl _⟩
    exact ⟨later, (Stage.leads_mark written after after').trans leads, own⟩

theorem Varies.first (bases : base.Varies texts other) (varies : search.Varies stage search')
    (fits : stage.Fits base other) :
    ∃ later, stage.Leads later ∧ later.Fits (base.first search).2 (other.first search').2 ∧
      Concur texts (Option.Rel later.Bindings) (base.first search).1 (other.first search').1 := by
  obtain ⟨later, leads, laterFits, step⟩ := bases.next varies fits
  refine ⟨later, leads, ?_, ?_⟩
  · rw [first_snd, first_snd]
    exact laterFits
  · unfold BeliefBase.first
    generalize base.next search = outcome at step
    generalize other.next search' = outcome' at step
    obtain ⟨stop, after⟩ := outcome
    obtain ⟨stop', after'⟩ := outcome'
    cases step with
    | ended => exact .ok .none
    | failed alike => exact .error alike
    | found inside rest => exact .ok (.some ⟨inside, rfl⟩)

theorem Varies.answers (bases : base.Varies texts other) (varies : search.Varies stage search')
    (fits : stage.Fits base other) :
    ∃ later, stage.Leads later ∧ later.Fits (base.answers search).2 (other.answers search').2 ∧
      Concur texts (List.Forall₂ later.Bindings) (base.answers search).1
        (other.answers search').1 := by
  obtain ⟨later, leads, laterFits, found, faults⟩ := bases.all varies fits
  refine ⟨later, leads, ?_, ?_⟩
  · rw [answers_snd, answers_snd]
    exact laterFits
  · unfold BeliefBase.answers
    generalize base.all search = outcome at found faults
    generalize other.all search' = outcome' at found faults
    obtain ⟨answers, fault, after⟩ := outcome
    obtain ⟨answers', fault', after'⟩ := outcome'
    cases faults with
    | none => exact .ok found
    | some alike => exact .error alike

end Answering

section Updates

variable {base other after after' : BeliefBase} {fact pattern : Term} {θ : Substitution}

/-- The facts of two bases change in the same way, and nothing else does. -/
def SameChange (base other after after' : BeliefBase) : Prop :=
  ∃ groups, after = { base with groups } ∧ after' = { other with groups }

theorem SameChange.trans {last last' : BeliefBase} (first : SameChange base other after after')
    (second : SameChange after after' last last') : SameChange base other last last' := by
  obtain ⟨groups, rfl, rfl⟩ := first
  obtain ⟨more, rfl, rfl⟩ := second
  exact ⟨more, rfl, rfl⟩

theorem SameChange.groups (change : SameChange base other after after') :
    after'.groups = after.groups := by
  obtain ⟨groups, rfl, rfl⟩ := change
  rfl

theorem sameChange_refl (groups : other.groups = base.groups) :
    SameChange base other base other := by
  refine ⟨base.groups, rfl, ?_⟩
  rw [← groups]

theorem Varies.changed {texts : Prop} (bases : base.Varies texts other)
    (change : SameChange base other after after') (ordered : after.Ordered) :
    after.Varies texts after' := by
  obtain ⟨groups, rfl, rfl⟩ := change
  exact ⟨rfl, ordered, bases.rules⟩

theorem factsLike_congr (groups : other.groups = base.groups) (term : Term) :
    other.factsLike term = base.factsLike term := by
  unfold factsLike
  rw [groups]

theorem sameChange_withFactsLike (groups : other.groups = base.groups) (term : Term)
    (facts : List Term) :
    SameChange base other (base.withFactsLike term facts) (other.withFactsLike term facts) := by
  unfold withFactsLike
  split
  next key filed => exact ⟨_, rfl, by rw [groups]⟩
  next => exact sameChange_refl groups

/-- A literal with other names is filed in the same place, if it has no variables. -/
theorem filing_rename (π : Variable → Variable) (fact : Term) :
    Concur False (fun key key' => key' = key ∧ fact.isGround = true) (filing fact)
      (filing (fact.rename π)) := by
  unfold filing
  rw [Term.indicator?_rename, Term.isGround_rename]
  split
  next => exact .error (.of_kind ((ite_self _).trans (ite_self _).symm))
  next key filed =>
    split
    next ground => exact .ok ⟨rfl, ground⟩
    next => exact .error (.of_kind ((ite_self _).trans (ite_self _).symm))

theorem assert_rename (groups : other.groups = base.groups) (π : Variable → Variable)
    (fact : Term) :
    Concur False (fun result result' => fact.isGround = true ∧ result'.1 = result.1 ∧
      SameChange base other result.2 result'.2) (base.assert fact)
      (other.assert (fact.rename π)) := by
  refine (filing_rename π fact).bind fun key key' filed => ?_
  obtain ⟨rfl, ground⟩ := filed
  have same : fact.rename π = fact := Term.bind_of_isGround ground _
  rw [same, contains, contains, factsLike_congr groups]
  split
  next => exact .ok ⟨ground, rfl, sameChange_refl groups⟩
  next => exact .ok ⟨ground, rfl, _, rfl, by rw [groups]⟩

theorem retract_congr (groups : other.groups = base.groups) (occursCheck : Bool) (pattern : Term) :
    (other.retract occursCheck pattern).1 = (base.retract occursCheck pattern).1 ∧
      SameChange base other (base.retract occursCheck pattern).2
        (other.retract occursCheck pattern).2 := by
  unfold retract
  simp only [factsLike_congr groups]
  split
  next => exact ⟨rfl, sameChange_refl groups⟩
  next => exact ⟨rfl, sameChange_withFactsLike groups _ _⟩

theorem splitFirst?_name {texts : Prop} (names : Correspondence texts) (occursCheck : Bool)
    (own : pattern.Over names.knows) (inside : θ.Inside names.knows) {facts : List Term}
    (ground : ∀ fact ∈ facts, fact.isGround = true) :
    splitFirst? occursCheck (pattern.rename names.name) (θ.rename names.name) facts =
      (splitFirst? occursCheck pattern θ facts).map fun (fact, extended, others) =>
        (fact, extended.rename names.name, others) := by
  induction facts with
  | nil => rfl
  | cons fact rest ih =>
    obtain ⟨first, others⟩ := List.forall_mem_cons.mp ground
    have unified := names.unify?_name own (Term.over_of_isGround first) inside occursCheck
    rw [show fact.rename names.name = fact from Term.bind_of_isGround first _] at unified
    rw [splitFirst?, splitFirst?, unified, ih others]
    cases θ.unify? occursCheck pattern fact with
    | some extended => rfl
    | none =>
      simp only [Option.map_none, Option.map_map]
      rfl

/-- Corresponding patterns take the same fact away. -/
theorem remove?_name {texts : Prop} (names : Correspondence texts)
    (groups : other.groups = base.groups) (ordered : base.Ordered) (occursCheck : Bool)
    (own : pattern.Over names.knows) (inside : θ.Inside names.knows) :
    Option.Rel (fun removed removed' => removed'.1 = removed.1 ∧
      names.Bindings removed.2.1 removed'.2.1 ∧ SameChange base other removed.2.2 removed'.2.2)
      (base.remove? occursCheck pattern θ)
      (other.remove? occursCheck (pattern.rename names.name) (θ.rename names.name)) := by
  have walkedOver := inside.over.walk own
  have ground : ∀ fact ∈ base.factsLike (θ.walk pattern), fact.isGround = true :=
    fun fact member => ordered.ground fact (ordered.mem_factsLike member).1
  have like : other.factsLike ((θ.walk pattern).rename names.name) =
      base.factsLike (θ.walk pattern) := by
    unfold factsLike
    rw [Term.indicator?_rename, groups]
  have put (facts : List Term) : other.withFactsLike ((θ.walk pattern).rename names.name) facts =
      other.withFactsLike (θ.walk pattern) facts := by
    unfold withFactsLike
    rw [Term.indicator?_rename]
  unfold remove?
  simp only [names.walk_name own inside, like, splitFirst?_name names occursCheck own inside ground]
  cases found : splitFirst? occursCheck pattern θ (base.factsLike (θ.walk pattern)) with
  | none => exact .none
  | some chosen =>
    obtain ⟨fact, extended, others⟩ := chosen
    obtain ⟨member, unified, -⟩ := splitFirst?_some found
    have factOver : fact.Over names.knows := Term.over_of_isGround (ground fact member)
    refine .some ⟨rfl, ⟨inside.unify? own factOver unified, rfl⟩, ?_⟩
    dsimp only
    rw [put]
    exact sameChange_withFactsLike groups _ _

/-- Two operations have corresponding outcomes and change the facts in the same way. -/
structure SameRevision {α β : Type} (related : α → β → Prop) (base other : BeliefBase)
    (revision : Revision α) (revision' : Revision β) : Prop where
  outcome : Concur False related revision.outcome revision'.outcome
  change : SameChange base other revision.base revision'.base

theorem sameRevision_announced {α β : Type} {related : α → β → Prop} {result : α} {result' : β}
    (change : SameChange base other after after') (own : related result result') (mark : String)
    (facts : List Term) :
    SameRevision related base other (announced mark facts result after)
      (announced mark facts result' after') := by
  refine ⟨?_, change⟩
  dsimp only [announced]
  split
  next => exact .ok own
  next => exact .error (.refl _ _)

theorem asserting_rename (groups : other.groups = base.groups) (π : Variable → Variable)
    (fact : Term) :
    SameRevision (fun new new' => fact.isGround = true ∧ new' = new) base other
      (base.asserting fact) (other.asserting (fact.rename π)) := by
  have agree := assert_rename groups π fact
  unfold asserting
  generalize base.assert fact = result at agree ⊢
  generalize other.assert (fact.rename π) = result' at agree ⊢
  cases agree with
  | error alike => exact ⟨.error alike, sameChange_refl groups⟩
  | @ok added added' own =>
    obtain ⟨new, larger⟩ := added
    obtain ⟨new', larger'⟩ := added'
    obtain ⟨ground, rfl, change⟩ := own
    rw [show fact.rename π = fact from Term.bind_of_isGround ground _]
    cases new' with
    | false => exact ⟨.ok ⟨ground, rfl⟩, change⟩
    | true => exact sameRevision_announced change ⟨ground, rfl⟩ _ _

theorem retracting_congr (groups : other.groups = base.groups) (occursCheck : Bool)
    (pattern : Term) :
    SameRevision (fun dropped dropped' => dropped' = dropped) base other
      (base.retracting occursCheck pattern) (other.retracting occursCheck pattern) := by
  obtain ⟨dropped, change⟩ := retract_congr groups occursCheck pattern
  unfold retracting
  dsimp only
  rw [dropped]
  refine sameRevision_announced change ?_ _ _
  rfl

theorem replacing_rename (groups : other.groups = base.groups) (π : Variable → Variable)
    (occursCheck : Bool) (fact : Term) :
    SameRevision (fun dropped dropped' => fact.isGround = true ∧ dropped' = dropped) base other
      (base.replacing occursCheck fact) (other.replacing occursCheck (fact.rename π)) := by
  have agree := filing_rename π fact
  unfold replacing
  generalize filing fact = filed at agree ⊢
  generalize filing (fact.rename π) = filed' at agree ⊢
  cases agree with
  | error alike => exact ⟨.error alike, sameChange_refl groups⟩
  | ok own =>
    obtain ⟨-, ground⟩ := own
    have same : fact.rename π = fact := Term.bind_of_isGround ground _
    have cleared := retracting_congr groups occursCheck (anyLike fact)
    rw [same]
    dsimp only
    generalize base.retracting occursCheck (anyLike fact) = revision at cleared ⊢
    generalize other.retracting occursCheck (anyLike fact) = revision' at cleared ⊢
    obtain ⟨outcome, smaller, _⟩ := revision
    obtain ⟨outcome', smaller', _⟩ := revision'
    obtain ⟨agree, change⟩ := cleared
    cases agree with
    | error alike => exact ⟨.error alike, change⟩
    | @ok dropped dropped' removed =>
      obtain rfl := removed
      have added := asserting_rename change.groups π fact
      rw [same] at added
      refine ⟨?_, change.trans added.change⟩
      have agree := added.outcome
      dsimp only
      generalize (smaller.asserting fact).outcome = outcome at agree ⊢
      generalize (smaller'.asserting fact).outcome = outcome' at agree ⊢
      cases agree with
      | error alike => exact .error alike
      | ok => exact .ok ⟨ground, rfl⟩

/-- Corresponding patterns take the same fact away. -/
theorem removing_name {texts : Prop} (names : Correspondence texts)
    (groups : other.groups = base.groups) (ordered : base.Ordered) (occursCheck : Bool)
    (own : pattern.Over names.knows) (inside : θ.Inside names.knows) :
    SameRevision (Option.Rel names.Bindings) base other (base.removing occursCheck pattern θ)
      (other.removing occursCheck (pattern.rename names.name) (θ.rename names.name)) := by
  have removed := remove?_name names groups ordered occursCheck own inside
  unfold removing
  generalize base.remove? occursCheck pattern θ = found at removed ⊢
  generalize other.remove? occursCheck (pattern.rename names.name) _ = found' at removed ⊢
  cases removed with
  | none => exact ⟨.ok .none, sameChange_refl groups⟩
  | @some taken taken' own =>
    obtain ⟨fact, extended, smaller⟩ := taken
    obtain ⟨fact', extended', smaller'⟩ := taken'
    obtain ⟨rfl, bindings, change⟩ := own
    exact sameRevision_announced change (.some bindings) _ _

end Updates

section Rules

variable {texts : Prop} {base other : BeliefBase}

theorem varies_empty : empty.Varies texts empty :=
  ⟨rfl, ordered_empty, fun _ => .nil⟩

theorem Varies.addRule {rule rule' : Rule} (bases : base.Varies texts other)
    (variant : rule.Varies texts rule') :
    (base.addRule rule).Varies texts (other.addRule rule') := by
  have ordered := bases.ordered.addRule rule
  obtain ⟨names, written, headOver, bodyOver, rfl⟩ := variant
  unfold BeliefBase.addRule at ordered ⊢
  rw [Term.indicator?_rename]
  split at ordered
  next key filed =>
    refine ⟨bases.groups, ordered, fun wanted => ?_⟩
    rw [Groups.push, Groups.push, Groups.get_put, Groups.get_put]
    split
    next =>
      exact List.rel_append (bases.rules key)
        (.cons ⟨names, written, headOver, bodyOver, rfl⟩ .nil)
    next => exact bases.rules wanted
  next => exact bases

theorem Varies.addRules {rules rules' : List Rule} (bases : base.Varies texts other)
    (variants : List.Forall₂ (Rule.Varies texts) rules rules') :
    (rules.foldl BeliefBase.addRule base).Varies texts (rules'.foldl BeliefBase.addRule other) := by
  induction variants generalizing base other with
  | nil => exact bases
  | cons variant rest ih => exact ih (bases.addRule variant)

end Rules

end BeliefBase

end AgentSpeak
