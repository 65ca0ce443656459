import AgentSpeak.Proofs.Agent.Ensuring

namespace AgentSpeak

open Substitution

namespace BeliefBase

variable {allowed : Variable → Prop} {base : BeliefBase}

theorem isGround_of_assert {fact : Term} {new : Bool} {after : BeliefBase}
    (done : base.assert fact = .ok (new, after)) : fact.isGround = true := by
  obtain ⟨key, filed, -⟩ := assert_ok done
  exact (filing_ok filed).2

theorem Ordered.ground_of_mem_retract (ordered : base.Ordered) {occursCheck : Bool}
    {pattern fact : Term} (member : fact ∈ (base.retract occursCheck pattern).1) :
    fact.isGround = true :=
  ordered.ground fact (mem_facts_of_retract member)

theorem ground_of_replacing (ordered : base.Ordered) {occursCheck : Bool} {fact : Term}
    {removed : List Term} (done : (base.replacing occursCheck fact).outcome = .ok removed) :
    fact.isGround = true ∧ ∀ old ∈ removed, old.isGround = true := by
  obtain ⟨key, new, filed, rfl, -⟩ := replacing_ok done
  exact ⟨(filing_ok filed).2, fun old member => ordered.ground_of_mem_retract member⟩

theorem over_of_removing (ordered : base.Ordered) {occursCheck : Bool} {pattern : Term}
    {θ extended : Substitution} (ranges : pattern.Over allowed) (own : θ.Over allowed)
    (done : (base.removing occursCheck pattern θ).outcome = .ok (some extended)) :
    extended.Over allowed := by
  obtain ⟨fact, member, unified⟩ := removing_some done
  have ground := ordered.ground _ (ordered.mem_factsLike member).1
  exact own.unify? ranges (Term.over_of_isGround ground) unified

end BeliefBase

theorem Agent.IsNamed.withBeliefs {source : Variable → Prop} {agent : Agent}
    (named : agent.IsNamed source) {beliefs : BeliefBase} (ordered : beliefs.Ordered)
    (rules : beliefs.ruleGroups = agent.beliefs.ruleGroups)
    (later : agent.beliefs.renamings ≤ beliefs.renamings) :
    Agent.IsNamed source { agent with beliefs } where
  plans := named.plans
  beliefs := ordered
  rules rule member := named.rules rule (by rwa [BeliefBase.rules, ← rules])
  events trigger member := (named.events trigger member).mono fun v made =>
    made.mono later (Nat.le_refl agent.renamings)
  replies := named.replies

namespace Watch

open Agent

variable {α : Type} {source : Variable → Prop} {since : Nat} {watch : Watch} {θ : Substitution}
  {term : Term}

theorem ensures_record (named : watch.IsNamed source since) (change : Journal → Journal) :
    Ensures source since watch (quietly (record change)) fun _ _ => True := by
  obtain ⟨plans, beliefs, rules, events, replies⟩ := named.agent
  refine (ensures_modify named ?_ rfl (Nat.le_refl _)).mono fun _ _ _ _ => trivial
  exact ⟨plans, beliefs, rules, events, replies⟩

theorem ensures_report (named : watch.IsNamed source since) (level : LogLevel) (message : String) :
    Ensures source since watch (quietly (report level message)) fun _ _ => True :=
  ensures_record named _

theorem ensures_reportNamed (named : watch.IsNamed source since) (level : LogLevel)
    (message : String) :
    Ensures source since watch (quietly (reportNamed level message)) fun _ _ => True :=
  (ensures_get named).next fun _ _ _ named' _ => ensures_report named' _ _

/-- Goes on only if what is written has a text. -/
theorem ensures_written (named : watch.IsNamed source since) (writable : Bool) :
    Ensures source since watch (quietly (written writable)) fun _ after => watch = after :=
  (ensures_ofExcept named _).mono fun _ _ _ done => done.2

theorem ensures_print (named : watch.IsNamed source since) (text : String) :
    Ensures source since watch (quietly (print text)) fun _ _ => True :=
  (ensures_record named _).next fun _ _ _ named' _ => (ensures_get named').next
    fun _ _ _ named' _ => (ensures_ofExcept named' _).mono fun _ _ _ _ => trivial

theorem ensures_post (named : watch.IsNamed source since) {trigger : Trigger}
    (own : trigger.literal.Over (watch.Known source)) :
    Ensures source since watch (quietly (post trigger)) fun _ _ => True := by
  refine (ensures_written named _).next ?_
  rintro _ _ - - rfl
  refine (ensures_reportNamed named _ _).next fun _ after later named' _ => ?_
  obtain ⟨plans, beliefs, rules, events, replies⟩ := named'.agent
  refine (ensures_modify named' ⟨plans, beliefs, rules, ?_, replies⟩ rfl (Nat.le_refl _)).mono
    fun _ _ _ _ => trivial
  exact List.forall_mem_append.mpr ⟨events, List.forall_mem_singleton.mpr (own.mono later.known)⟩

theorem ensures_freshNumber (named : watch.IsNamed source since) :
    Ensures source since watch (quietly freshNumber) fun n after =>
      n = after.agent.renamings ∧ watch.agent.renamings < n := by
  obtain ⟨plans, beliefs, rules, events, replies⟩ := named.agent
  have counted : Agent.IsNamed source
      { watch.agent with renamings := watch.agent.renamings + 1 } := by
    refine ⟨plans, beliefs, rules, fun trigger member => ?_, replies⟩
    exact (events trigger member).mono fun v made => made.mono (Nat.le_refl _) (Nat.le_succ _)
  refine ⟨⟨Nat.le_refl _, Nat.le_succ _⟩, named.withAgent counted rfl (Nat.le_succ _), ?_⟩
  rintro _ ⟨⟩
  exact ⟨rfl, Nat.lt_succ_self _⟩

/-- A change of the facts keeps the names in order. -/
theorem ensures_revise {change : BeliefBase → BeliefBase.Revision α}
    (named : watch.IsNamed source since) (ordered : (change watch.agent.beliefs).base.Ordered)
    (same : watch.agent.beliefs.SameRules (change watch.agent.beliefs).base) :
    Ensures source since watch (quietly (revise change)) fun value _ =>
      (change watch.agent.beliefs).outcome = .ok value := by
  refine (ensures_get named).next ?_
  rintro _ _ - - ⟨rfl, rfl⟩
  have changed := named.agent.withBeliefs ordered same.groups same.renamings.ge
  refine (ensures_modify named changed same.renamings (Nat.le_refl _)).next ?_
  intro _ after _ named' _
  refine (ensures_forM named' fun text _ _ named => ensures_report named .debug text).next
    fun _ _ _ named' _ => ?_
  exact (ensures_ofExcept named' _).mono fun _ _ _ done => done.1

/-- Rules that are applied one behind the other keep the names in order, if they are noted. -/
theorem IsNamed.applied (named : watch.IsNamed source since) {beliefs : BeliefBase}
    {applied : List Application}
    (applies : watch.agent.beliefs.Applies source watch.agent.renamings applied beliefs) :
    IsNamed source since ⟨{ watch.agent with beliefs }, watch.applied ++ applied⟩ := by
  have ordered : beliefs.Ordered := applies.after ▸ named.agent.beliefs.renamed _
  have same : beliefs.ruleGroups = watch.agent.beliefs.ruleGroups := by rw [applies.after]
  refine ⟨named.agent.withBeliefs ordered same applies.later, ?_, ?_,
    List.forall_mem_append.mpr ⟨named.fits, applies.fits⟩⟩
  · show beliefs.renamings = since + (watch.applied ++ applied).length
    rw [applies.after, List.length_append, ← Nat.add_assoc, ← named.counted]
  · rw [List.map_append, named.numbers, applies.numbers, List.length_append, named.counted,
      Nat.add_right_comm, List.range'_append_1]

/-- The rules that a question applies are noted, and what it gives has known variables. -/
theorem ensures_searching (ask : BeliefBase → Except Fault α × BeliefBase × List Application)
    {known : (Variable → Prop) → α → Prop} (named : watch.IsNamed source since)
    (gives : BeliefBase.Gives source watch.agent.renamings watch.agent.beliefs
      (ask watch.agent.beliefs) known) :
    Ensures source since watch (searching ask) fun value after =>
      known (after.Known source) value :=
  ⟨⟨gives.applies.later, Nat.le_refl _⟩, named.applied gives.applies, gives.result⟩

theorem isNamed_beliefs (named : watch.IsNamed source since) :
    watch.agent.beliefs.IsNamed source :=
  ⟨named.agent.beliefs.ground, named.agent.rules⟩

/-- The bindings of an answer have known variables, if those of the question have. -/
theorem ensures_holds (named : watch.IsNamed source since) (formula : Formula)
    (formulaOver : formula.Over (watch.Known source)) (own : θ.Over (watch.Known source)) :
    Ensures source since watch (holds formula θ) fun found after =>
      ∀ answer, found = some answer → answer.Over (after.Known source) := by
  refine (ensures_get named).bind ?_
  rintro _ _ - - ⟨rfl, rfl⟩
  exact ensures_searching (·.firstOf (Course.solve watch.agent.limits formula θ)) named
    ((isNamed_beliefs named).firstOf (Course.draws_solve formulaOver own))

theorem ensures_answers (named : watch.IsNamed source since) (formula : Formula)
    (formulaOver : formula.Over (watch.Known source)) (own : θ.Over (watch.Known source)) :
    Ensures source since watch (answers formula θ) fun found after =>
      ∀ answer ∈ found, answer.Over (after.Known source) := by
  refine (ensures_get named).bind ?_
  rintro _ _ - - ⟨rfl, rfl⟩
  exact ensures_searching (·.answersOf (Course.solve watch.agent.limits formula θ)) named
    ((isNamed_beliefs named).answersOf (Course.draws_solve formulaOver own))

theorem ensures_query (named : watch.IsNamed source since) {formula : Formula}
    (formulaOver : formula.Over (watch.Known source)) :
    Ensures source since watch (query formula) fun _ _ => True :=
  (ensures_answers named formula formulaOver over_empty).bind
    fun _ _ _ named' _ => ensures_pure named' trivial

theorem ensures_resolve (named : watch.IsNamed source since) (own : θ.Over (watch.Known source))
    (ranges : term.Over (watch.Known source)) :
    Ensures source since watch (quietly (Agent.resolve θ term)) fun result after =>
      θ.resolve term = .ok result ∧ watch = after ∧ result.Over (watch.Known source) :=
  (ensures_ofExcept named _).mono fun _ _ _ done => ⟨done.1, done.2, own.resolve ranges done.1⟩

theorem ensures_addBelief (named : watch.IsNamed source since) (fact : Term) :
    Ensures source since watch (quietly (addBelief fact)) fun _ _ => True := by
  refine (ensures_revise named (named.agent.beliefs.asserting fact)
    (BeliefBase.sameRules_asserting _ fact)).next ?_
  intro added after _ named' done
  dsimp only
  split
  next =>
    refine (ensures_post named' ?_).next fun _ last _ namedLast _ =>
      ensures_quietly_pure namedLast trivial
    exact Term.over_of_isGround (BeliefBase.isGround_of_assert (BeliefBase.asserting_ok done))
  next => exact ensures_quietly_pure named' trivial

theorem ensures_postAll (named : watch.IsNamed source since) {facts : List Term}
    {event : Term → Trigger} (literal : ∀ fact, (event fact).literal = fact)
    (ground : ∀ fact ∈ facts, fact.isGround = true) :
    Ensures source since watch (quietly (facts.forM fun fact => post (event fact)))
      fun _ _ => True := by
  refine ensures_forM named fun fact member after named' => ensures_post named' ?_
  rw [literal]
  exact Term.over_of_isGround (ground fact member)

theorem ensures_removeBeliefs (named : watch.IsNamed source since) (pattern : Term) :
    Ensures source since watch (quietly (removeBeliefs pattern)) fun _ _ => True := by
  refine (ensures_get named).next ?_
  rintro _ _ - - ⟨rfl, rfl⟩
  refine (ensures_revise named (named.agent.beliefs.retracting _ pattern)
    (BeliefBase.sameRules_retract _ _ pattern)).next ?_
  intro removed after _ named' done
  have ground : ∀ fact ∈ removed, fact.isGround = true := by
    obtain ⟨rfl, -⟩ := BeliefBase.retracting_ok done
    exact fun fact member => named.agent.beliefs.ground_of_mem_retract member
  refine (ensures_postAll named' (fun _ => rfl) ground).next fun _ last _ namedLast _ => ?_
  exact ensures_quietly_pure namedLast trivial

end Watch

end AgentSpeak
