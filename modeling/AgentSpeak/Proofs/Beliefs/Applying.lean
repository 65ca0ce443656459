import AgentSpeak.Proofs.Beliefs.Course
import AgentSpeak.Proofs.Beliefs.Filing
import AgentSpeak.Proofs.Formula.Instance
import AgentSpeak.Proofs.Program.Renaming
import AgentSpeak.Proofs.Substitution.Resolution
import AgentSpeak.Proofs.Term.Naming

/-!
The variables that a course deals with. Where its question and its bindings have variables that have
come up, rules have variables of the source and facts have none, whatever the course proves, binds
and answers has variables that have come up by then: only the renamings on the way bring in others.
-/

namespace AgentSpeak

open Substitution

variable {source : Variable → Prop} {rules own rules' own' : Nat}

/-- All variables of a rule are allowed. -/
def Rule.Over (allowed : Variable → Prop) (rule : Rule) : Prop :=
  ∀ v ∈ rule.vars, allowed v

theorem Rule.mem_vars_mark {rule : Rule} {marks : List String} {v : Variable}
    (occurs : v ∈ (rule.mark marks).vars) : ∃ w ∈ rule.vars, v = w.mark marks := by
  rcases List.mem_append.mp occurs with head | body
  · obtain ⟨w, inside, same⟩ := Term.mem_vars_bind.mp head
    exact ⟨w, List.mem_append_left _ inside, List.mem_singleton.mp same⟩
  · rw [Rule.mark, Formula.mark_eq_bind] at body
    obtain ⟨w, inside, same⟩ := Formula.mem_vars_bind.mp body
    exact ⟨w, List.mem_append_right _ inside, List.mem_singleton.mp same⟩

theorem Rule.over_mark {allowed : Variable → Prop} {rule : Rule} {marks : List String}
    (each : ∀ v ∈ rule.vars, allowed (v.mark marks)) :
    (rule.mark marks).head.Over allowed ∧ (rule.mark marks).body.Over allowed :=
  ⟨Term.over_mark fun v inside => each v (List.mem_append_left _ inside),
    Formula.over_mark fun v inside => each v (List.mem_append_right _ inside)⟩

namespace Course

variable {first course : Course} {θ : Substitution} {occursCheck : Bool} {literal : Term}
  {formula : Formula}

/-- From now on a course proves and answers with variables that have come up by then. So many
renamings of rules were made until now; while the course waits, there can be more. -/
inductive Draws (source : Variable → Prop) (own : Nat) : Nat → Course → Prop where
  | done {rules : Nat} : Draws source own rules .done
  | failed {rules : Nat} (fault : Fault) : Draws source own rules (.failed fault)
  | answer {rules : Nat} {θ : Substitution} {rest : Unit → Course}
      (bindings : θ.Over (Variable.Made source rules own))
      (later : Draws source own rules (rest ())) : Draws source own rules (.answer θ rest)
  | facts {rules : Nat} (key : Indicator) {next : List Term → Course}
      (each : ∀ facts, (∀ fact ∈ facts, fact.isGround = true) →
        Draws source own rules (next facts)) : Draws source own rules (.facts key next)
  | rules {rules : Nat} (key : Indicator) {next : List Rule → Course}
      (each : ∀ found, (∀ rule ∈ found, rule.Over source) →
        Draws source own rules (next found)) : Draws source own rules (.rules key next)
  | apply {rules : Nat} {goal : Term} {θ : Substitution} {rule : Rule} {next : Nat → Course}
      (given : rule.Over source) (proved : goal.Over (Variable.Made source rules own))
      (bindings : θ.Over (Variable.Made source rules own))
      (each : ∀ n, rules < n → Draws source own n (next n)) :
      Draws source own rules (.apply goal θ rule next)

theorem Draws.mono (draws : course.Draws source own rules) (rulesLater : rules ≤ rules')
    (ownLater : own ≤ own') : course.Draws source own' rules' := by
  have wider {rules rules' : Nat} (later : rules ≤ rules') (v : Variable)
      (made : Variable.Made source rules own v) : Variable.Made source rules' own' v :=
    made.mono later ownLater
  induction draws generalizing rules' with
  | done => exact .done
  | failed fault => exact .failed fault
  | answer bindings later ih => exact .answer (bindings.mono (wider rulesLater)) (ih rulesLater)
  | facts key each ih => exact .facts key fun facts ground => ih facts ground rulesLater
  | rules key each ih => exact .rules key fun found given => ih found given rulesLater
  | apply given proved bindings each ih =>
    refine .apply given (proved.mono (wider rulesLater)) (bindings.mono (wider rulesLater)) ?_
    exact fun n later => ih n (Nat.lt_of_le_of_lt rulesLater later) (Nat.le_refl n)

theorem draws_single (bindings : θ.Over (Variable.Made source rules own)) :
    (single θ).Draws source own rules :=
  .answer bindings .done

theorem Draws.append {second : Unit → Course} (draws : first.Draws source own rules)
    (others : (second ()).Draws source own rules) :
    (first.append second).Draws source own rules := by
  induction draws with
  | done => exact others
  | failed fault => exact .failed fault
  | answer bindings later ih => exact .answer bindings (ih others)
  | facts key each ih => exact .facts key fun facts ground => ih facts ground others
  | rules key each ih => exact .rules key fun found given => ih found given others
  | apply given proved bindings each ih =>
    refine .apply given proved bindings fun n later => ih n later ?_
    exact others.mono (Nat.le_of_lt later) (Nat.le_refl own)

theorem Draws.bind {next : Substitution → Course} (draws : first.Draws source own rules)
    (each : ∀ n θ, rules ≤ n → θ.Over (Variable.Made source n own) →
      (next θ).Draws source own n) : (first.bind next).Draws source own rules := by
  induction draws with
  | done => exact .done
  | failed fault => exact .failed fault
  | answer bindings later ih => exact (each _ _ (Nat.le_refl _) bindings).append (ih each)
  | facts key _ ih => exact .facts key fun facts ground => ih facts ground each
  | rules key _ ih => exact .rules key fun found given => ih found given each
  | apply given proved bindings _ ih =>
    refine .apply given proved bindings fun n later => ih n later fun m θ further => ?_
    exact each m θ (Nat.le_trans (Nat.le_of_lt later) further)

theorem Draws.refute (draws : course.Draws source own rules)
    (bindings : θ.Over (Variable.Made source rules own)) :
    (course.refute θ).Draws source own rules := by
  induction draws with
  | done => exact draws_single bindings
  | failed fault => exact .failed fault
  | answer => exact .done
  | facts key each ih => exact .facts key fun facts ground => ih facts ground bindings
  | rules key each ih => exact .rules key fun found given => ih found given bindings
  | apply given proved known each ih =>
    refine .apply given proved known fun n later => ih n later (bindings.mono fun v made => ?_)
    exact made.mono (Nat.le_of_lt later) (Nat.le_refl own)

theorem draws_matching (known : literal.Over (Variable.Made source rules own))
    (bindings : θ.Over (Variable.Made source rules own)) {facts : List Term}
    (ground : ∀ fact ∈ facts, fact.isGround = true) :
    (matching occursCheck literal θ facts).Draws source own rules := by
  induction facts with
  | nil => exact .done
  | cons fact rest ih =>
    obtain ⟨own, others⟩ := List.forall_mem_cons.mp ground
    rw [matching]
    split
    next extended unified =>
      exact .answer (bindings.unify? known (Term.over_of_isGround own) unified) (ih others)
    next => exact ih others

section Proving

variable {prove : Formula → Substitution → Course}

theorem draws_applying
    (proves : ∀ n formula θ, rules ≤ n → formula.Over (Variable.Made source n own) →
      θ.Over (Variable.Made source n own) → (prove formula θ).Draws source own n)
    (known : literal.Over (Variable.Made source rules own))
    (bindings : θ.Over (Variable.Made source rules own)) {found : List Rule}
    (given : ∀ rule ∈ found, rule.Over source) :
    (applying occursCheck prove literal θ found).Draws source own rules := by
  induction found generalizing rules with
  | nil => exact .done
  | cons rule rest ih =>
    obtain ⟨first, others⟩ := List.forall_mem_cons.mp given
    refine .apply first known bindings fun n later => ?_
    have onwards (v : Variable) (made : Variable.Made source rules own v) :
        Variable.Made source n own v := made.mono (Nat.le_of_lt later) (Nat.le_refl own)
    have remaining : (applying occursCheck prove literal θ rest).Draws source own n :=
      ih (fun m formula θ further => proves m formula θ (Nat.le_trans (Nat.le_of_lt later) further))
        (known.mono onwards) (bindings.mono onwards) others
    obtain ⟨head, body⟩ : (rule.mark [toString n]).head.Over (Variable.Made source n own) ∧
        (rule.mark [toString n]).body.Over (Variable.Made source n own) :=
      Rule.over_mark fun v inside => .rule (first v inside) (Nat.le_refl n)
    dsimp only
    split
    next extended unified =>
      have extendedOver := (bindings.mono onwards).unify? (known.mono onwards) head unified
      exact (proves n _ extended (Nat.le_of_lt later) body extendedOver).append remaining
    next => exact remaining

theorem draws_asking
    (proves : ∀ n formula θ, rules ≤ n → formula.Over (Variable.Made source n own) →
      θ.Over (Variable.Made source n own) → (prove formula θ).Draws source own n)
    (known : literal.Over (Variable.Made source rules own))
    (bindings : θ.Over (Variable.Made source rules own)) :
    (asking occursCheck prove literal θ).Draws source own rules := by
  have walked := bindings.walk known
  unfold asking
  split
  next => exact draws_single bindings
  next => exact .done
  next =>
    split
    next => exact .failed _
    next key _ =>
      refine .facts key fun facts ground => (draws_matching walked bindings ground).append ?_
      exact .rules key fun found given => draws_applying proves walked bindings given

theorem draws_ofResult {result : Except Fault (Option Substitution)}
    (bindings : ∀ θ, result = .ok (some θ) → θ.Over (Variable.Made source rules own)) :
    (ofResult result).Draws source own rules := by
  unfold ofResult
  split
  next θ => exact draws_single (bindings θ rfl)
  next => exact .done
  next fault => exact .failed fault

end Proving

theorem draws_relating {relation : Relation} {left right : Term}
    (bindings : θ.Over (Variable.Made source rules own))
    (leftKnown : left.Over (Variable.Made source rules own))
    (rightKnown : right.Over (Variable.Made source rules own)) :
    (relating occursCheck relation left right θ).Draws source own rules := by
  refine draws_ofResult fun θ' done => ?_
  split at done
  next =>
    obtain ⟨s, first, rest⟩ := bind_eq_ok_iff.mp done
    obtain ⟨t, second, unified⟩ := bind_eq_ok_iff.mp rest
    exact bindings.unify? (bindings.resolve leftKnown first) (bindings.resolve rightKnown second)
      (Except.ok.inj unified)
  next =>
    obtain ⟨holds, compared, chosen⟩ := bind_eq_ok_iff.mp done
    have chosen := Except.ok.inj chosen
    split at chosen
    next =>
      cases chosen
      exact bindings
    next => cases chosen

theorem draws_solvingWith {ask : Term → Substitution → Course}
    (asks : ∀ n literal θ, rules ≤ n → literal.Over (Variable.Made source n own) →
      θ.Over (Variable.Made source n own) → (ask literal θ).Draws source own n)
    (known : formula.Over (Variable.Made source rules own))
    (bindings : θ.Over (Variable.Made source rules own)) :
    (solvingWith occursCheck ask formula θ).Draws source own rules := by
  induction formula generalizing rules θ with
  | literal term => exact asks rules term θ (Nat.le_refl _) known bindings
  | negation formula ih => exact (ih asks known bindings).refute bindings
  | conjunction left right leftIh rightIh =>
    obtain ⟨leftKnown, rightKnown⟩ := List.forall_mem_append.mp known
    refine (leftIh asks leftKnown bindings).bind fun n θ later bindings => ?_
    refine rightIh (fun m literal θ further => asks m literal θ (Nat.le_trans later further)) ?_
      bindings
    exact fun v inside => (rightKnown v inside).mono later (Nat.le_refl own)
  | disjunction left right leftIh rightIh =>
    obtain ⟨leftKnown, rightKnown⟩ := List.forall_mem_append.mp known
    exact (leftIh asks leftKnown bindings).append (rightIh asks rightKnown bindings)
  | comparison relation left right =>
    obtain ⟨leftKnown, rightKnown⟩ := List.forall_mem_append.mp known
    exact draws_relating bindings leftKnown rightKnown

variable {limits : Limits}

theorem draws_queryWithin (levels : Nat) (known : literal.Over (Variable.Made source rules own))
    (bindings : θ.Over (Variable.Made source rules own)) :
    (queryWithin limits levels literal θ).Draws source own rules := by
  induction levels generalizing literal θ rules with
  | zero => exact .failed _
  | succ levels ih =>
    refine draws_asking (fun n formula θ _ known bindings => ?_) known bindings
    exact draws_solvingWith (fun _ _ _ _ => ih) known bindings

theorem draws_query (known : literal.Over (Variable.Made source rules own))
    (bindings : θ.Over (Variable.Made source rules own)) :
    (query limits literal θ).Draws source own rules :=
  draws_queryWithin _ known bindings

theorem draws_solve (known : formula.Over (Variable.Made source rules own))
    (bindings : θ.Over (Variable.Made source rules own)) :
    (solve limits formula θ).Draws source own rules :=
  draws_solvingWith (fun _ _ _ _ => draws_query) known bindings

end Course

/-- The rule of an application is of the source, and its literal and bindings have variables that had
come up before its number was used. -/
structure Application.Fits (source : Variable → Prop) (own : Nat) (application : Application) :
    Prop where
  given : application.rule.Over source
  earlier : ∃ rules < application.number,
    application.goal.Over (Variable.Made source rules own) ∧
      application.bindings.Over (Variable.Made source rules own)

theorem Application.Fits.mono {application : Application} (fits : application.Fits source own)
    (later : own ≤ own') : application.Fits source own' where
  given := fits.given
  earlier := by
    obtain ⟨rules, before, proved, bindings⟩ := fits.earlier
    have more (v : Variable) (made : Variable.Made source rules own v) :
        Variable.Made source rules own' v := made.mono (Nat.le_refl rules) later
    exact ⟨rules, before, proved.mono more, bindings.mono more⟩

namespace BeliefBase

/-- The facts are ground, and the rules have variables of the source. -/
structure IsNamed (source : Variable → Prop) (base : BeliefBase) : Prop where
  ground : ∀ fact ∈ base.facts, fact.isGround = true
  given : ∀ rule ∈ base.rules, rule.Over source

/-- Some rules were applied one behind the other, each with the next number, and nothing else
happened to the base. -/
structure Applies (base : BeliefBase) (source : Variable → Prop) (own : Nat)
    (applied : List Application) (after : BeliefBase) : Prop where
  after : after = { base with renamings := base.renamings + applied.length }
  numbers : applied.map Application.number = List.range' (base.renamings + 1) applied.length
  fits : ∀ application ∈ applied, application.Fits source own

variable {base after : BeliefBase} {course : Course} {applied : List Application}

theorem Applies.refl (base : BeliefBase) (source : Variable → Prop) (own : Nat) :
    Applies base source own [] base :=
  ⟨rfl, rfl, fun _ member => nomatch member⟩

theorem Applies.cons {goal : Term} {θ : Substitution} {rule : Rule} (given : rule.Over source)
    (proved : goal.Over (Variable.Made source base.renamings own))
    (bindings : θ.Over (Variable.Made source base.renamings own))
    (applies : Applies { base with renamings := base.renamings + 1 } source own applied after) :
    Applies base source own (⟨goal, θ, rule, base.renamings + 1⟩ :: applied) after where
  after := by
    rw [applies.after, List.length_cons, Nat.add_assoc, Nat.add_comm 1]
  numbers := by
    rw [List.map_cons, applies.numbers, List.length_cons, List.range'_succ]
  fits := List.forall_mem_cons.mpr
    ⟨⟨given, _, Nat.lt_succ_self _, proved, bindings⟩, applies.fits⟩

theorem IsNamed.draws_facts (named : base.IsNamed source) {key : Indicator}
    {next : List Term → Course} (draws : (Course.facts key next).Draws source own base.renamings) :
    (next (base.groups.get key)).Draws source own base.renamings := by
  cases draws with
  | facts _ each =>
    exact each _ fun fact member => named.ground fact (Groups.mem_toList_of_mem_get member)

theorem IsNamed.draws_rules (named : base.IsNamed source) {key : Indicator}
    {next : List Rule → Course} (draws : (Course.rules key next).Draws source own base.renamings) :
    (next (base.ruleGroups.get key)).Draws source own base.renamings := by
  cases draws with
  | rules _ each =>
    exact each _ fun rule member => named.given rule (Groups.mem_toList_of_mem_get member)

/-- Counting renamings changes no names. -/
theorem IsNamed.counted (named : base.IsNamed source) {renamings : Nat} :
    IsNamed source { base with renamings } :=
  ⟨named.ground, named.given⟩

/-- Up to its next answer a course applies rules one behind the other, and the answer and what is
left of the course have variables that have come up by then. -/
theorem IsNamed.follow (named : base.IsNamed source) (draws : course.Draws source own base.renamings) :
    base.Applies source own (base.follow course).2.2 (base.follow course).2.1 ∧
      ∀ θ rest, (base.follow course).1 = .found θ rest →
        θ.Over (Variable.Made source (base.follow course).2.1.renamings own) ∧
          rest.Draws source own (base.follow course).2.1.renamings := by
  induction course generalizing base with
  | done => exact ⟨.refl .., nofun⟩
  | failed fault => exact ⟨.refl .., nofun⟩
  | answer θ rest ih =>
    cases draws with
    | answer bindings later =>
      refine ⟨.refl .., ?_⟩
      rintro _ _ ⟨⟩
      exact ⟨bindings, later⟩
  | facts key next ih => exact ih _ named (named.draws_facts draws)
  | rules key next ih => exact ih _ named (named.draws_rules draws)
  | apply goal θ rule next ih =>
    cases draws with
    | apply given proved bindings each =>
      obtain ⟨applies, found⟩ := ih _ named.counted (each _ (Nat.lt_succ_self _))
      exact ⟨applies.cons given proved bindings, found⟩

theorem Applies.later (applies : base.Applies source own applied after) :
    base.renamings ≤ after.renamings := by
  rw [applies.after]
  exact Nat.le_add_right _ _

/-- So do all answers of a course. -/
theorem IsNamed.followAll (named : base.IsNamed source)
    (draws : course.Draws source own base.renamings) :
    base.Applies source own (base.followAll course).2.2.2 (base.followAll course).2.2.1 ∧
      ∀ θ ∈ (base.followAll course).1,
        θ.Over (Variable.Made source (base.followAll course).2.2.1.renamings own) := by
  induction course generalizing base with
  | done => exact ⟨.refl .., nofun⟩
  | failed fault => exact ⟨.refl .., nofun⟩
  | answer θ rest ih =>
    cases draws with
    | answer bindings later =>
      obtain ⟨applies, others⟩ := ih () named later
      refine ⟨applies, List.forall_mem_cons.mpr ⟨bindings.mono fun v made => ?_, others⟩⟩
      exact made.mono applies.later (Nat.le_refl own)
  | facts key next ih => exact ih _ named (named.draws_facts draws)
  | rules key next ih => exact ih _ named (named.draws_rules draws)
  | apply goal θ rule next ih =>
    cases draws with
    | apply given proved bindings each =>
      obtain ⟨applies, found⟩ := ih _ named.counted (each _ (Nat.lt_succ_self _))
      exact ⟨applies.cons given proved bindings, found⟩

/-- What a question to a base gives, with the rules that it applies. -/
structure Gives {α : Type} (source : Variable → Prop) (own : Nat) (base : BeliefBase)
    (outcome : Except Fault α × BeliefBase × List Application)
    (known : (Variable → Prop) → α → Prop) : Prop where
  applies : base.Applies source own outcome.2.2 outcome.2.1
  result : ∀ value, outcome.1 = .ok value →
    known (Variable.Made source outcome.2.1.renamings own) value

theorem IsNamed.firstOf (named : base.IsNamed source)
    (draws : course.Draws source own base.renamings) :
    Gives source own base (base.firstOf course) fun allowed found =>
      ∀ θ, found = some θ → θ.Over allowed := by
  obtain ⟨applies, found⟩ := named.follow draws
  unfold BeliefBase.firstOf
  split
  next rest followed =>
    rw [followed] at applies
    exact ⟨applies, by rintro _ ⟨⟩ _ ⟨⟩⟩
  next fault rest followed =>
    rw [followed] at applies
    exact ⟨applies, nofun⟩
  next θ left rest followed =>
    rw [followed] at applies found
    refine ⟨applies, ?_⟩
    rintro _ ⟨⟩ _ ⟨⟩
    exact (found θ left rfl).1

theorem IsNamed.answersOf (named : base.IsNamed source)
    (draws : course.Draws source own base.renamings) :
    Gives source own base (base.answersOf course) fun allowed found =>
      ∀ θ ∈ found, θ.Over allowed := by
  obtain ⟨applies, each⟩ := named.followAll draws
  unfold BeliefBase.answersOf
  split
  next found rest followed =>
    rw [followed] at applies each
    refine ⟨applies, ?_⟩
    rintro _ ⟨⟩
    exact each
  next fault rest followed =>
    rw [followed] at applies
    exact ⟨applies, nofun⟩

end BeliefBase

end AgentSpeak
