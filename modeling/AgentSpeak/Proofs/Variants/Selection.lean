import AgentSpeak.Agent.Execution
import AgentSpeak.Proofs.Variants.Operations

/-!
The plans that two agents choose, if they differ in the names of variables. A chosen plan begins
with the variables of its text, which are as they are read, and with those of the event, which have
a mark of their own.
-/

namespace AgentSpeak

/-- The frame of the second agent is that of the first one with other names. -/
structure Frame.Varies (stage : Stage False) (frame frame' : Frame) : Prop where
  change : frame'.plan.trigger.change = frame.plan.trigger.change
  subject : frame'.plan.trigger.subject = frame.plan.trigger.subject
  bindings : stage.Bindings frame.bindings frame'.bindings
  literal : stage.Terms frame.literal frame'.literal
  tasks : List.Forall₂ stage.Tasks frame.tasks frame'.tasks

namespace Stage

variable {source event : Correspondence False} {agent other : Agent}

theorem fresh_event (written : source.IsWritten) (event : Correspondence False) (n n' : Nat) :
    Correspondence.Fresh source event
      (Correspondence.marking False ("e" ++ toString n) ("e" ++ toString n')) where
  left {_ w} known _ :=
    (written.left known).ne_lettered (Variable.mem_lettered 'e' (toString n)) (by decide) w
  right {_ w} known _ :=
    (written.right known).ne_lettered (Variable.mem_lettered 'e' (toString n')) (by decide)
      (event.name w)

/-- The stage of a plan that begins for an event. -/
noncomputable def opening (source : Correspondence False) (written : source.IsWritten)
    (event : Correspondence False) (n n' : Nat) (agent other : Agent) : Stage False where
  toCorrespondence := source.graft event _ (fresh_event written event n n')
  count := agent.beliefs.renamings
  count' := other.beliefs.renamings
  predates := by
    have old : source.Both (Variable.Predates agent.beliefs.renamings)
        (Variable.Predates other.beliefs.renamings) :=
      fun v known => ⟨(written.left known).predates _, (written.right known).predates _⟩
    refine old.graft (fun w _ => ⟨?_, ?_⟩) (fresh_event written event n n')
    · exact w.predates_mark (Variable.mem_lettered 'e' (toString n)) (by decide) _
    · exact (event.name w).predates_mark (Variable.mem_lettered 'e' (toString n')) (by decide) _

variable (written : source.IsWritten) (n n' : Nat)

theorem opening_extends :
    (opening source written event n n' agent other).toCorrespondence.Extends source :=
  Correspondence.graft_extends (fresh_event written event n n')

theorem opening_literal {literal : Term} (own : literal.Over event.knows) :
    (opening source written event n n' agent other).Terms (literal.mark ["e" ++ toString n])
      ((literal.rename event.name).mark ["e" ++ toString n']) :=
  ⟨Correspondence.over_graft (fresh_event written event n n') own,
    (Correspondence.rename_graft (fresh_event written event n n') own).symm⟩

theorem opening_serves : (opening source written event n n' agent other).Serves agent other where
  fits := ⟨Nat.le_refl _, Nat.le_refl _⟩
  settled := by
    have old : source.Both (Variable.IsSettled agent.renamings)
        (Variable.IsSettled other.renamings) :=
      fun v known => ⟨(written.left known).settled _, (written.right known).settled _⟩
    exact old.graft (fun w _ => ⟨w.settled_mark_event n _, (event.name w).settled_mark_event n' _⟩)
      (fresh_event written event n n')

end Stage

namespace Agent

variable {agent other : Agent}

/-- The two agents have chosen corresponding plans for an event, with corresponding bindings. -/
structure Choose (stage : Stage False) (literal literal' : Term)
    (choice choice' : Plan × Substitution) : Prop where
  known : ∀ v ∈ choice.1.vars, stage.knows v
  plan : choice'.1 = choice.1.rename stage.name
  bindings : stage.Bindings choice.2 choice'.2
  literal : stage.Terms literal literal'

theorem together_firstApplicable (varies : agent.Varies other) {event : Correspondence False}
    {literal : Term} (own : literal.Over event.knows) (n n' : Nat) {plans plans' : List Plan}
    (variants : List.Forall₂ Plan.Varies plans plans') :
    Together agent other (firstApplicable (literal.mark ["e" ++ toString n]) plans)
      (firstApplicable ((literal.rename event.name).mark ["e" ++ toString n']) plans')
      fun found found' after after' => Option.Rel (fun choice choice' =>
        ∃ stage : Stage False, stage.Serves after after' ∧
          Choose stage (literal.mark ["e" ++ toString n])
            ((literal.rename event.name).mark ["e" ++ toString n']) choice choice')
        found found' := by
  induction variants generalizing agent other with
  | nil => exact together_pure varies .none
  | @cons plan plan' rest rest' variant others ih =>
    obtain ⟨source, written, owned, rfl⟩ := variant
    let stage := Stage.opening source written event n n' agent other
    have begun : stage.toCorrespondence.Extends source := Stage.opening_extends written n n'
    have serves : stage.Serves agent other := Stage.opening_serves written n n'
    have known : ∀ v ∈ plan.vars, stage.knows v := fun v member => begun.knows (owned v member)
    have renamed : plan.rename source.name = plan.rename stage.name :=
      Plan.rename_congr fun v member => (begun.name (owned v member)).symm
    have literals : stage.Terms (literal.mark ["e" ++ toString n])
        ((literal.rename event.name).mark ["e" ++ toString n']) :=
      Stage.opening_literal written n n' own
    have triggers : stage.Terms plan.trigger.literal (plan.rename stage.name).trigger.literal :=
      ⟨fun v member => known v (by simp [Plan.vars, member]), rfl⟩
    have contexts : stage.Formulas plan.context (plan.rename stage.name).context :=
      ⟨fun v member => known v (by simp [Plan.vars, member]), rfl⟩
    have nothing : stage.Bindings .empty .empty := ⟨Substitution.inside_empty, rfl⟩
    have unified := stage.unify?_related triggers literals nothing agent.limits.occursCheck
    refine .get ?_
    rw [renamed, varies.limits]
    dsimp only
    generalize Substitution.empty.unify? agent.limits.occursCheck plan.trigger.literal _ = found
      at unified ⊢
    generalize Substitution.empty.unify? agent.limits.occursCheck
      (plan.rename stage.name).trigger.literal _ = found' at unified ⊢
    cases unified with
    | none => exact ih varies
    | some bindings =>
      refine (together_holds varies serves contexts bindings).bind
        fun found found' after after' onwards varies own => ?_
      obtain ⟨later, leads, laterServes, related⟩ := own
      cases related with
      | none => exact ih varies
      | some answers =>
        refine together_pure varies (.some ⟨later, laterServes, ?_, ?_, answers, ?_⟩)
        · exact fun v member => leads.keeps.knows (known v member)
        · exact Plan.rename_congr fun v member => (leads.keeps.name (known v member)).symm
        · exact leads.keeps.terms literals

theorem varies_relevantPlans (varies : agent.Varies other) {trigger trigger' : Trigger}
    (event : trigger.Varies trigger') :
    List.Forall₂ Plan.Varies (agent.relevantPlans trigger) (other.relevantPlans trigger') := by
  obtain ⟨names, -, rfl⟩ := event
  refine List.rel_filter (fun plan plan' variant => ?_) varies.plans
  obtain ⟨source, -, -, rfl⟩ := variant
  simp only [Plan.rename, Trigger.rename, Term.indicator?_rename]

/-- Two frames that correspond at a stage of their own. -/
def Opened (goal goal' : Option Term) (frame frame' : Frame) (after after' : Agent) : Prop :=
  frame.callerGoal = goal ∧ frame'.callerGoal = goal' ∧
    ∃ stage : Stage False, stage.Serves after after' ∧ frame.Varies stage frame'

/-- For corresponding events the agents choose corresponding plans, or none. -/
theorem together_selectPlan (varies : agent.Varies other) {trigger trigger' : Trigger}
    (event : trigger.Varies trigger') (goal goal' : Option Term) :
    Together agent other (selectPlan trigger goal) (selectPlan trigger' goal')
      fun found found' after after' =>
        Option.Rel (fun frame frame' => Opened goal goal' frame frame' after after')
          found found' := by
  refine (together_freshNumber varies).bind fun n n' fresh fresh' _ varies _ => ?_
  refine .get ?_
  have plans := varies_relevantPlans varies event
  obtain ⟨names, own, rfl⟩ := event
  refine (together_firstApplicable varies own n n' plans).bind
    fun found found' after after' _ varies chosen => ?_
  cases chosen with
  | none => exact together_pure varies .none
  | @some choice choice' chosen =>
    obtain ⟨plan, bindings⟩ := choice
    obtain ⟨plan', bindings'⟩ := choice'
    obtain ⟨stage, serves, known, rfl, binds, literal⟩ := chosen
    refine .written varies (by simp) ?_
    refine (together_reportNamed varies _ _ _ _).bind fun _ _ last last' onwards varies _ => ?_
    refine together_pure varies (.some ⟨rfl, rfl, stage, serves.after onwards, ?_⟩)
    have body : ∀ v ∈ Statement.varsAll plan.body, stage.knows v :=
      fun v member => known v (by simp [Plan.vars, member])
    exact ⟨rfl, rfl, binds, literal, Correspondence.tasks_ofStatements body⟩

end Agent

end AgentSpeak
