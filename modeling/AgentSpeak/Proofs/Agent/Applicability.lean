import AgentSpeak.Proofs.Agent.Deliberation
import AgentSpeak.Proofs.Variants.Selection

/-!
Whether an event is handled does not depend on the moment. Later on an agent makes other names when it
renames variables apart, but none that its plans and rules have, and so the same plans apply. A goal
whose failure is handled when the agent comes to it is one whose failure was handled from the start.
-/

namespace AgentSpeak.Agent

variable {agent now : Agent} {event : Trigger} {literal : Term} {plans : List Plan}
  {frames later : List Frame} {handler : Frame} {alive : Bool}

/-- Where plans are declined, none of them is chosen. -/
theorem Declined.run {limits : Limits} {base last : BeliefBase}
    (declined : Declined limits literal base plans last) :
    ∀ agent, agent.limits = limits → agent.beliefs = base →
      ∃ after, (firstApplicable literal plans).run.run agent = (.ok none, after) ∧
        after.beliefs = last := by
  induction declined with
  | nobody => exact fun agent _ same => ⟨agent, rfl, same⟩
  | unfit unlike others ih =>
    rintro agent rfl rfl
    obtain ⟨after, ran, same⟩ := ih agent rfl rfl
    refine ⟨after, Eq.trans ?_ ran, same⟩
    have looked : (get : AgentM Agent).run.run agent = (.ok agent, agent) := rfl
    rw [firstApplicable, run_bind, looked]
    dsimp only
    rw [unlike]
  | @unmet _ between _ plan _ θ fits asked others ih =>
    rintro agent rfl rfl
    obtain ⟨after, ran, same⟩ := ih { agent with beliefs := between } rfl rfl
    refine ⟨after, Eq.trans ?_ ran, same⟩
    have looked : (get : AgentM Agent).run.run agent = (.ok agent, agent) := rfl
    rw [firstApplicable, run_bind, looked]
    dsimp only
    rw [fits]
    dsimp only
    rw [run_bind, run_holds, asked]

/-- For an event that nobody handles, no plan is chosen. -/
theorem run_selectPlan_unhandled (unhandled : Unhandled event agent) (callerGoal : Option Term) :
    ∃ after, (selectPlan event callerGoal).run.run agent = (.ok none, after) := by
  obtain ⟨last, declined⟩ := unhandled
  let next := { agent with renamings := agent.renamings + 1 }
  obtain ⟨after, ran, -⟩ := declined.run next rfl rfl
  have numbered : freshNumber.run.run agent = (.ok (agent.renamings + 1), next) := rfl
  have looked : (get : AgentM Agent).run.run next = (.ok next, next) := rfl
  have tried : (firstApplicable (event.literal.mark ["e" ++ toString (agent.renamings + 1)])
      (next.relevantPlans event)).run.run next = (.ok none, after) := ran
  refine ⟨after, ?_⟩
  rw [selectPlan, run_bind, numbered]
  dsimp only
  rw [run_bind, looked]
  dsimp only
  rw [run_bind, tried]
  rfl

/-- A plan that applies is not declined. -/
theorem Declined.ends {limits : Limits} {base between last : BeliefBase} {earlier behind : List Plan}
    {plan : Plan} {bindings : Substitution}
    (declined : Declined limits literal base earlier between)
    (applies : Applies limits between literal plan bindings) :
    ¬ Declined limits literal base (earlier ++ plan :: behind) last := by
  intro whole
  induction declined with
  | nobody =>
    obtain ⟨θ, fits, answered⟩ := applies
    cases whole with
    | unfit unlike => cases unlike.symm.trans fits
    | unmet fits' asked =>
      cases fits'.symm.trans fits
      cases (congrArg Prod.fst asked).symm.trans answered
  | unfit unlike _ ih =>
    cases whole with
    | unfit _ rest => exact ih applies rest
    | unmet fits => cases unlike.symm.trans fits
  | unmet fits asked _ ih =>
    cases whole with
    | unfit unlike => cases unlike.symm.trans fits
    | unmet fits' asked' rest =>
      cases fits.symm.trans fits'
      cases asked.symm.trans asked'
      exact ih applies rest

/-- An event is not both handled and unhandled. -/
theorem HandledBy.handled (handles : HandledBy handler event agent) : ¬ Unhandled event agent := by
  rintro ⟨last, declined⟩
  obtain ⟨earlier, behind, base, plans, before, applies⟩ := handles.first
  exact before.ends applies (plans ▸ declined)

/-- Other names for variables do not change which events are handled. -/
theorem Varies.unhandled_iff {other : Agent} {event' : Trigger} (varies : agent.Varies other)
    (events : event.Varies event') : Unhandled event agent ↔ Unhandled event' other := by
  have agree := (together_selectPlan varies events none none).agree
  constructor
  · intro unhandled
    obtain ⟨after, ran⟩ := run_selectPlan_unhandled unhandled none
    rcases ran' : (selectPlan event' none).run.run other with ⟨outcome, after'⟩
    rw [ran, ran'] at agree
    obtain ⟨⟨⟩⟩ := agree
    exact selectPlan_none ran'
  · intro unhandled
    obtain ⟨after', ran'⟩ := run_selectPlan_unhandled unhandled none
    rcases ran : (selectPlan event none).run.run agent with ⟨outcome, after⟩
    rw [ran, ran'] at agree
    obtain ⟨⟨⟩⟩ := agree
    exact selectPlan_none ran

/-- Plans and rules have the names of a text for their variables, and the facts are in order. -/
structure IsWritten (agent : Agent) : Prop where
  plans : ∀ plan ∈ agent.plans, ∀ v ∈ plan.vars, v.IsWritten
  rules : ∀ key, ∀ rule ∈ agent.beliefs.ruleGroups.get key,
    ∀ v ∈ rule.head.vars ++ rule.body.vars, v.IsWritten
  beliefs : agent.beliefs.Ordered

/-- The names that are made at a later moment are other ones. No action and no output takes part in a
choice of plans. -/
theorem IsWritten.varies (written : agent.IsWritten) (deliberated : Deliberated agent now) :
    Varies { agent with actions := .empty, stream := fun _ => none }
      { now with actions := .empty, stream := fun _ => none } := by
  obtain ⟨renamings, count, log, rfl⟩ := deliberated
  exact {
    name := rfl
    limits := rfl
    stream := fun _ => rfl
    stream' := fun _ => rfl
    actions := rfl
    actions' := rfl
    plans := List.forall₂_same.mpr fun plan member => Plan.varies_self (written.plans plan member)
    beliefs := ⟨rfl, written.beliefs, fun key => List.forall₂_same.mpr fun rule member =>
      Rule.varies_self (written.rules key rule member)⟩
    events := List.forall₂_same.mpr fun event _ => event.varies_self }

/-- The same events are handled at every moment. -/
theorem IsWritten.unhandled_iff (written : agent.IsWritten) (deliberated : Deliberated agent now) :
    Unhandled event agent ↔ Unhandled event now :=
  (written.varies deliberated).unhandled_iff event.varies_self

theorem IsWritten.unhandled (written : agent.IsWritten)
    (meanwhile : Meanwhile agent (Unhandled event)) : Unhandled event agent := by
  obtain ⟨now, deliberated, unhandled⟩ := meanwhile
  exact (written.unhandled_iff deliberated).mpr unhandled

theorem IsWritten.handled (written : agent.IsWritten)
    (meanwhile : Meanwhile agent (HandledBy handler event)) : ¬ Unhandled event agent := by
  obtain ⟨now, deliberated, handles⟩ := meanwhile
  exact fun unhandled => handles.handled ((written.unhandled_iff deliberated).mp unhandled)

/-- The goal that a failure unwinds to is the nearest one whose failure is handled, as things are when
the statement fails. -/
theorem Unwinds.nearest (written : agent.IsWritten) (unwinds : Unwinds agent frames true later) :
    ∃ above failed, frames = above ++ failed :: later.tail ∧
      (∀ frame ∈ above, frame.pursuesGoal → Unhandled (.failure frame.instantiated) agent) ∧
      failed.pursuesGoal ∧ ¬ Unhandled (.failure failed.instantiated) agent := by
  cases unwinds with
  | handled stack unhandled goal handles _ =>
    refine ⟨_, _, stack, fun frame member goal => ?_, goal, written.handled handles⟩
    exact written.unhandled (unhandled frame member goal)

/-- An intention is dropped if there is no such goal. -/
theorem Unwinds.unhandled (written : agent.IsWritten) (unwinds : Unwinds agent frames false later) :
    ∀ frame ∈ frames, frame.pursuesGoal → Unhandled (.failure frame.instantiated) agent := by
  cases unwinds with
  | dropped unhandled =>
    exact fun frame member goal => written.unhandled (unhandled frame member goal)

end AgentSpeak.Agent
