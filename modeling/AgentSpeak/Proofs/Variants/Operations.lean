import AgentSpeak.Proofs.Agent.Keeping
import AgentSpeak.Proofs.Variants.Computation

namespace AgentSpeak

namespace BeliefBase

/-- A search leaves a base as it was but for the number of renamings. -/
structure Searched (base after : BeliefBase) : Prop where
  same : ∃ n, after = { base with renamings := n }
  later : base.renamings ≤ after.renamings

theorem searched_first (base : BeliefBase) (search : Search) :
    base.Searched (base.first search).2 := by
  obtain ⟨n, later, same⟩ := base.next_eq search
  rw [first_snd, same]
  exact ⟨⟨n, rfl⟩, later⟩

theorem searched_answers (base : BeliefBase) (search : Search) :
    base.Searched (base.answers search).2 := by
  obtain ⟨n, later, same⟩ := base.all_eq search
  rw [answers_snd, same]
  exact ⟨⟨n, rfl⟩, later⟩

end BeliefBase

namespace Agent

variable {α β : Type} {agent other : Agent} {stage : Stage False}

/-- The bindings that two agents have found correspond at a later stage. -/
def Finds (stage : Stage False) (found found' : Option Substitution) (after after' : Agent) :
    Prop :=
  ∃ later : Stage False, stage.Leads later ∧ later.Serves after after' ∧
    Option.Rel later.Bindings found found'

theorem together_record (varies : agent.Varies other) (change change' : Journal → Journal) :
    Together agent other (record change) (record change') fun _ _ _ _ => True := by
  have noted : Varies { agent with journal := change agent.journal }
      { other with journal := change' other.journal } :=
    { varies with }
  exact (together_modify noted ⟨Nat.le_refl _, Nat.le_refl _, Nat.le_refl _, Nat.le_refl _⟩).mono
    fun _ _ _ _ _ _ => trivial

theorem together_report (varies : agent.Varies other) (level level' : LogLevel)
    (message message' : String) :
    Together agent other (report level message) (report level' message') fun _ _ _ _ => True :=
  together_record varies _ _

theorem together_reportNamed (varies : agent.Varies other) (level level' : LogLevel)
    (message message' : String) :
    Together agent other (reportNamed level message) (reportNamed level' message')
      fun _ _ _ _ => True :=
  .get (together_report varies _ _ _ _)

theorem together_print (varies : agent.Varies other) (text text' : String) :
    Together agent other (print text) (print text') fun _ _ _ _ => True := by
  refine (together_record varies _ _).bind fun _ _ _ _ _ varies _ => .get ?_
  rw [varies.stream, varies.stream']
  exact together_pure varies trivial

/-- Corresponding events are posted. -/
theorem together_post (varies : agent.Varies other) {trigger trigger' : Trigger}
    (event : trigger.Varies trigger') :
    Together agent other (post trigger) (post trigger') fun _ _ _ _ => True := by
  refine .written varies event.isWritable ?_
  refine (together_reportNamed varies _ _ _ _).bind fun _ _ after after' _ varies _ => ?_
  have posted : Varies { after with events := after.events ++ [trigger] }
      { after' with events := after'.events ++ [trigger'] } :=
    { varies with events := List.rel_append varies.events (.cons event .nil) }
  exact (together_modify posted ⟨Nat.le_refl _, Nat.le_refl _, Nat.le_refl _, Nat.le_refl _⟩).mono
    fun _ _ _ _ _ _ => trivial

theorem together_freshNumber (varies : agent.Varies other) :
    Together agent other freshNumber freshNumber fun n n' after after' =>
      n = after.renamings ∧ n' = after'.renamings ∧ agent.renamings < n ∧ other.renamings < n' := by
  have counted : Varies { agent with renamings := agent.renamings + 1 }
      { other with renamings := other.renamings + 1 } :=
    { varies with }
  exact ⟨⟨Nat.le_succ _, Nat.le_succ _, Nat.le_refl _, Nat.le_refl _⟩, counted,
    .ok ⟨rfl, rfl, Nat.lt_succ_self _, Nat.lt_succ_self _⟩⟩

theorem together_searching (varies : agent.Varies other)
    {search : BeliefBase → Except Fault α × BeliefBase}
    {search' : BeliefBase → Except Fault β × BeliefBase} {related : α → β → Prop}
    (own : agent.beliefs.Searched (search agent.beliefs).2)
    (own' : other.beliefs.Searched (search' other.beliefs).2)
    (agree : Concur False related (search agent.beliefs).1 (search' other.beliefs).1) :
    Together agent other (searching search) (searching search') fun value value' after after' =>
      after.beliefs = (search agent.beliefs).2 ∧ after'.beliefs = (search' other.beliefs).2 ∧
        related value value' := by
  refine ⟨⟨Nat.le_refl _, Nat.le_refl _, own.later, own'.later⟩, ?_, ?_⟩
  · obtain ⟨n, same⟩ := own.same
    obtain ⟨n', same'⟩ := own'.same
    show Varies { agent with beliefs := (search agent.beliefs).2 }
      { other with beliefs := (search' other.beliefs).2 }
    rw [same, same']
    exact { varies with beliefs := varies.beliefs.renamed n n' }
  · exact agree.mono fun _ _ own => ⟨rfl, rfl, own⟩

/-- Corresponding searches have corresponding first answers. -/
theorem together_first (varies : agent.Varies other) (serves : stage.Serves agent other)
    {search search' : Search} (vary : search.Varies stage search') :
    Together agent other (searching (·.first search)) (searching (·.first search'))
      (Finds stage) := by
  obtain ⟨later, leads, fits, agree⟩ := varies.beliefs.first vary serves.fits
  refine (together_searching varies (agent.beliefs.searched_first search)
    (other.beliefs.searched_first search') agree).mono ?_
  intro found found' after after' onwards own
  obtain ⟨base, base', related⟩ := own
  rw [← base, ← base'] at fits
  exact ⟨later, leads, leads.serves (serves.after onwards) fits, related⟩

theorem together_holds (varies : agent.Varies other) (serves : stage.Serves agent other)
    {formula formula' : Formula} {θ θ' : Substitution} (formulas : stage.Formulas formula formula')
    (bindings : stage.Bindings θ θ') :
    Together agent other (holds formula θ) (holds formula' θ') (Finds stage) := by
  refine .get (together_first varies serves ?_)
  rw [formulas.same, bindings.same, varies.limits]
  exact Search.varies_solve _ formulas.known bindings.inside

/-- Corresponding questions have corresponding answers. -/
theorem together_answers (varies : agent.Varies other) (serves : stage.Serves agent other)
    {formula formula' : Formula} {θ θ' : Substitution} (formulas : stage.Formulas formula formula')
    (bindings : stage.Bindings θ θ') :
    Together agent other (answers formula θ) (answers formula' θ')
      fun found found' after after' => ∃ later : Stage False, stage.Leads later ∧
        later.Serves after after' ∧ List.Forall₂ later.Bindings found found' := by
  have vary : (Search.solve agent.limits formula θ).Varies stage
      (Search.solve other.limits formula' θ') := by
    rw [formulas.same, bindings.same, varies.limits]
    exact Search.varies_solve _ formulas.known bindings.inside
  obtain ⟨later, leads, fits, agree⟩ := varies.beliefs.answers vary serves.fits
  refine .get ((together_searching varies (agent.beliefs.searched_answers _)
    (other.beliefs.searched_answers _) agree).mono ?_)
  intro found found' after after' onwards own
  obtain ⟨base, base', related⟩ := own
  rw [← base, ← base'] at fits
  exact ⟨later, leads, leads.serves (serves.after onwards) fits, related⟩

theorem together_resolve (varies : agent.Varies other) {term term' : Term} {θ θ' : Substitution}
    (terms : stage.Terms term term') (bindings : stage.Bindings θ θ') :
    Together agent other (resolve θ term) (resolve θ' term') fun value value' after after' =>
      after = agent ∧ after' = other ∧ stage.Terms value value' := by
  rw [terms.same, bindings.same]
  exact together_ofExcept varies (stage.resolve_name terms.known bindings.inside)

/-- Both bases change in the same way, whether the operations fail or not. -/
theorem together_revise (varies : agent.Varies other) {related : α → β → Prop}
    {change : BeliefBase → BeliefBase.Revision α} {change' : BeliefBase → BeliefBase.Revision β}
    (ordered : (change agent.beliefs).base.Ordered)
    (same : BeliefBase.SameRevision related agent.beliefs other.beliefs (change agent.beliefs)
      (change' other.beliefs)) :
    Together agent other (revise change) (revise change') fun value value' _ _ =>
      related value value' := by
  obtain ⟨log, ran⟩ := run_revise change agent
  obtain ⟨log', ran'⟩ := run_revise change' other
  have changed := varies.beliefs.changed same.change ordered
  obtain ⟨groups, kept, kept'⟩ := same.change
  refine ⟨?_, ?_, ?_⟩ <;> rw [ran, ran']
  · exact ⟨Nat.le_refl _, Nat.le_refl _, (congrArg BeliefBase.renamings kept).ge,
      (congrArg BeliefBase.renamings kept').ge⟩
  · exact { varies with beliefs := changed }
  · exact same.outcome

/-- Corresponding literals are believed by both agents or by none. -/
theorem together_addBelief (varies : agent.Varies other) {names : Correspondence False}
    {fact fact' : Term} (terms : names.Terms fact fact') :
    Together agent other (addBelief fact) (addBelief fact') fun _ _ _ _ => True := by
  have same := BeliefBase.asserting_rename varies.beliefs.groups names.name fact
  rw [← terms.same] at same
  refine (together_revise varies (varies.beliefs.ordered.asserting fact) same).bind
    fun added added' after after' _ varies own => ?_
  obtain ⟨-, rfl⟩ := own
  dsimp only
  split
  next =>
    refine (together_post varies (terms.event _ _)).bind fun _ _ _ _ _ varies _ => ?_
    exact together_pure varies trivial
  next => exact together_pure varies trivial

end Agent

end AgentSpeak
