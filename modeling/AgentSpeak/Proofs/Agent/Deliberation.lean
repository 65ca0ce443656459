import AgentSpeak.Proofs.Agent.Keeping

/-!
How an agent chooses a plan for an event. It tries the plans for events of that kind in order of
declaration, and takes the first one whose trigger fits the event, with its variables renamed apart,
and whose context has an answer. Meanwhile it reports and uses up numbers for renamings, and changes
nothing else.
-/

namespace AgentSpeak.Agent

/-- The facts in their order, the queue of events and the printed lines are the same. -/
structure Undisturbed (before after : Agent) : Prop where
  facts : after.beliefs.facts = before.beliefs.facts
  events : after.events = before.events
  transcript : after.transcript = before.transcript

theorem deliberating_undisturbed : Deliberating Undisturbed where
  refl _ := ⟨rfl, rfl, rfl⟩
  trans first second := ⟨second.facts.trans first.facts, second.events.trans first.events,
    second.transcript.trans first.transcript⟩
  logged _ _ := ⟨rfl, rfl, rfl⟩
  renamed _ _ := ⟨rfl, rfl, rfl⟩
  searched _ _ := ⟨rfl, rfl, rfl⟩

/-- The same agent at a later moment, when it has reported and used up some numbers. -/
def Deliberated (before after : Agent) : Prop :=
  ∃ renamings count log, after = { before with
    renamings
    beliefs := { before.beliefs with renamings := count }
    journal := { before.journal with log } }

theorem deliberating_deliberated : Deliberating Deliberated where
  refl _ := ⟨_, _, _, rfl⟩
  trans := by
    rintro _ _ _ ⟨_, _, _, rfl⟩ ⟨renamings, count, log, rfl⟩
    exact ⟨renamings, count, log, rfl⟩
  logged _ log := ⟨_, _, log, rfl⟩
  renamed _ renamings := ⟨renamings, _, _, rfl⟩
  searched _ count := ⟨_, count, _, rfl⟩

theorem Deliberated.undisturbed {before after : Agent} (same : Deliberated before after) :
    Undisturbed before after := by
  obtain ⟨renamings, count, log, rfl⟩ := same
  exact ⟨rfl, rfl, rfl⟩

/-- Something holds of an agent at the moment when it comes to it. -/
def Meanwhile (agent : Agent) (property : Agent → Prop) : Prop :=
  ∃ now, Deliberated agent now ∧ property now

theorem Meanwhile.earlier {agent between : Agent} {property : Agent → Prop}
    (meanwhile : Meanwhile between property) (before : Deliberated agent between) :
    Meanwhile agent property := by
  obtain ⟨now, later, own⟩ := meanwhile
  exact ⟨now, deliberating_deliberated.trans before later, own⟩

/-- A plan applies to a literal: its trigger fits, and its context has an answer then, of which the
first one is `bindings`. -/
def Applies (limits : Limits) (base : BeliefBase) (literal : Term) (plan : Plan)
    (bindings : Substitution) : Prop :=
  ∃ θ, Substitution.empty.unify? limits.occursCheck plan.trigger.literal literal = some θ ∧
    (base.first (Search.solve limits plan.context θ)).1 = .ok (some bindings)

/-- Plans tried one after the other, none of which applies to a literal: the trigger does not fit, or
the context has no answer. The search for one uses up numbers of the base. -/
inductive Declined (limits : Limits) (literal : Term) :
    BeliefBase → List Plan → BeliefBase → Prop where
  | nobody {base : BeliefBase} : Declined limits literal base [] base
  | unfit {base last : BeliefBase} {plan : Plan} {rest : List Plan}
      (unlike : Substitution.empty.unify? limits.occursCheck plan.trigger.literal literal = none)
      (others : Declined limits literal base rest last) :
      Declined limits literal base (plan :: rest) last
  | unmet {base between last : BeliefBase} {plan : Plan} {rest : List Plan} {θ : Substitution}
      (fits : Substitution.empty.unify? limits.occursCheck plan.trigger.literal literal = some θ)
      (asked : base.first (Search.solve limits plan.context θ) = (.ok none, between))
      (others : Declined limits literal between rest last) :
      Declined limits literal base (plan :: rest) last

/-- The literal of an event with the variables renamed apart by the agent's next number. -/
def apart (agent : Agent) (event : Trigger) : Term :=
  event.literal.mark ["e" ++ toString (agent.renamings + 1)]

/-- None of the agent's plans applies to an event. -/
def Unhandled (event : Trigger) (agent : Agent) : Prop :=
  ∃ base, Declined agent.limits (agent.apart event) agent.beliefs (agent.relevantPlans event) base

/-- A frame of the first of the agent's plans, in order of declaration, that applies to an event. All
statements of the plan are still to be run. -/
structure HandledBy (frame : Frame) (event : Trigger) (agent : Agent) : Prop where
  first : ∃ earlier later base, agent.relevantPlans event = earlier ++ frame.plan :: later ∧
    Declined agent.limits (agent.apart event) agent.beliefs earlier base ∧
      Applies agent.limits base (agent.apart event) frame.plan frame.bindings
  literal : frame.literal = agent.apart event
  tasks : frame.tasks = Task.ofStatements frame.plan.body

variable {agent after : Agent} {literal : Term} {plans : List Plan} {event : Trigger}

/-- Each of the plans was tried at some moment and does not apply then. -/
theorem Declined.forall {limits : Limits} {base last : BeliefBase}
    (declined : Declined limits literal base plans last) :
    ∀ plan ∈ plans, ∃ renamings, ∀ bindings,
      ¬ Applies limits { base with renamings } literal plan bindings := by
  induction declined with
  | nobody => exact fun _ member => nomatch member
  | @unfit base last plan rest unlike others ih =>
    refine List.forall_mem_cons.mpr ⟨⟨base.renamings, ?_⟩, ih⟩
    rintro bindings ⟨θ, fits, -⟩
    cases unlike.symm.trans fits
  | @unmet base between last plan rest θ fits asked others ih =>
    obtain ⟨count, same⟩ := base.first_eq (Search.solve limits plan.context θ)
    refine List.forall_mem_cons.mpr ⟨⟨base.renamings, ?_⟩, ?_⟩
    · rintro bindings ⟨θ', fits', answered⟩
      cases fits.symm.trans fits'
      cases (congrArg Prod.fst asked).symm.trans answered
    · rw [asked] at same
      rwa [show between = _ from same] at ih

/-- A question to the belief base uses up numbers of it. -/
theorem run_holds (formula : Formula) (θ : Substitution) (agent : Agent) :
    (holds formula θ).run.run agent =
      ((agent.beliefs.first (Search.solve agent.limits formula θ)).1,
        { agent with
          beliefs := (agent.beliefs.first (Search.solve agent.limits formula θ)).2 }) := rfl

theorem firstApplicable_none
    (ran : (firstApplicable literal plans).run.run agent = (.ok none, after)) :
    Declined agent.limits literal agent.beliefs plans after.beliefs := by
  induction plans generalizing agent with
  | nil =>
    cases ran
    exact .nobody
  | cons plan rest ih =>
    obtain ⟨looked, _, ⟨⟩, ran⟩ := exists_of_run_bind ran
    dsimp only at ran
    split at ran
    next unlike => exact .unfit unlike (ih ran)
    next θ fits =>
      obtain ⟨found, between, asked, ran⟩ := exists_of_run_bind ran
      rw [run_holds] at asked
      obtain ⟨answered, rfl⟩ := Prod.mk.inj asked
      split at ran
      next => exact .unmet fits (Prod.ext answered rfl) (ih ran)
      next => cases ran

theorem firstApplicable_some {plan : Plan} {bindings : Substitution}
    (ran : (firstApplicable literal plans).run.run agent = (.ok (some (plan, bindings)), after)) :
    ∃ earlier later base, plans = earlier ++ plan :: later ∧
      Declined agent.limits literal agent.beliefs earlier base ∧
        Applies agent.limits base literal plan bindings := by
  induction plans generalizing agent with
  | nil => cases ran
  | cons other rest ih =>
    obtain ⟨looked, _, ⟨⟩, ran⟩ := exists_of_run_bind ran
    dsimp only at ran
    split at ran
    next unlike =>
      obtain ⟨earlier, later, base, rfl, declined, applies⟩ := ih ran
      exact ⟨other :: earlier, later, base, rfl, .unfit unlike declined, applies⟩
    next θ fits =>
      obtain ⟨found, between, asked, ran⟩ := exists_of_run_bind ran
      rw [run_holds] at asked
      obtain ⟨answered, rfl⟩ := Prod.mk.inj asked
      split at ran
      next =>
        obtain ⟨earlier, later, base, rfl, declined, applies⟩ := ih ran
        exact ⟨other :: earlier, later, base, rfl,
          .unmet fits (Prod.ext answered rfl) declined, applies⟩
      next =>
        cases ran
        exact ⟨[], rest, agent.beliefs, rfl, .nobody, θ, fits, answered⟩

/-- The event is renamed apart with the next number, and the relevant plans are tried. -/
theorem exists_of_run_selectPlan {callerGoal : Option Term} {frame : Option Frame}
    (ran : (selectPlan event callerGoal).run.run agent = (.ok frame, after)) :
    ∃ found between,
      (firstApplicable (agent.apart event) (agent.relevantPlans event)).run.run
        { agent with renamings := agent.renamings + 1 } = (.ok found, between) ∧
      frame = found.map fun chosen =>
        { plan := chosen.1, bindings := chosen.2, literal := agent.apart event,
          tasks := Task.ofStatements chosen.1.body, callerGoal } := by
  obtain ⟨n, _, ⟨⟩, ran⟩ := exists_of_run_bind ran
  obtain ⟨looked, _, ⟨⟩, ran⟩ := exists_of_run_bind ran
  obtain ⟨found, between, tried, ran⟩ := exists_of_run_bind ran
  refine ⟨found, between, tried, ?_⟩
  split at ran
  next =>
    cases ran
    rfl
  next =>
    obtain ⟨_, _, -, ⟨⟩⟩ := exists_of_run_bind ran
    rfl

theorem selectPlan_none {callerGoal : Option Term}
    (ran : (selectPlan event callerGoal).run.run agent = (.ok none, after)) :
    Unhandled event agent := by
  obtain ⟨found, between, tried, none⟩ := exists_of_run_selectPlan ran
  obtain rfl := Option.map_eq_none_iff.mp none.symm
  have declined := firstApplicable_none tried
  exact ⟨between.beliefs, declined⟩

theorem selectPlan_some {callerGoal : Option Term} {frame : Frame}
    (ran : (selectPlan event callerGoal).run.run agent = (.ok (some frame), after)) :
    HandledBy frame event agent ∧ frame.callerGoal = callerGoal := by
  obtain ⟨found, between, tried, some⟩ := exists_of_run_selectPlan ran
  obtain ⟨⟨plan, bindings⟩, rfl, rfl⟩ := Option.map_eq_some_iff.mp some.symm
  have first := firstApplicable_some tried
  exact ⟨⟨first, rfl, rfl⟩, rfl⟩

variable {agent after : Agent} {intention next : Intention} {frames later : List Frame}

/-- For none of the frames that pursue a goal does a plan apply to its failure, at the moment when
the agent comes to it. -/
def NoneHandled (agent : Agent) (frames : List Frame) : Prop :=
  ∀ frame ∈ frames, frame.pursuesGoal →
    Meanwhile agent (Unhandled (.failure frame.instantiated))

/-- What a failure makes of a stack, and whether the intention goes on. -/
inductive Unwinds (agent : Agent) (frames : List Frame) : Bool → List Frame → Prop where
  /-- Nobody handles the failure. -/
  | dropped (unhandled : NoneHandled agent frames) : Unwinds agent frames false []
  /-- The nearest goal whose failure is handled gives way to the plan that handles it. -/
  | handled {above below : List Frame} {failed handler : Frame}
      (stack : frames = above ++ failed :: below)
      (unhandled : NoneHandled agent above)
      (goal : failed.pursuesGoal)
      (handles : Meanwhile agent (HandledBy handler (.failure failed.instantiated)))
      (detached : handler.callerGoal = none) : Unwinds agent frames true (handler :: below)

theorem NoneHandled.earlier {between : Agent} (unhandled : NoneHandled between frames)
    (before : Deliberated agent between) : NoneHandled agent frames :=
  fun frame member goal => (unhandled frame member goal).earlier before

theorem Unwinds.earlier {between : Agent} {alive : Bool}
    (unwinds : Unwinds between frames alive later) (before : Deliberated agent between) :
    Unwinds agent frames alive later := by
  cases unwinds with
  | dropped unhandled => exact .dropped (unhandled.earlier before)
  | handled stack unhandled goal handles detached =>
    exact .handled stack (unhandled.earlier before) goal (handles.earlier before) detached

/-- One more frame comes off the stack, if it pursues no goal or nobody handles its failure. -/
theorem Unwinds.cons {frame : Frame} {alive : Bool}
    (unwinds : Unwinds agent frames alive later)
    (off : frame.pursuesGoal → Meanwhile agent (Unhandled (.failure frame.instantiated))) :
    Unwinds agent (frame :: frames) alive later := by
  cases unwinds with
  | dropped unhandled => exact .dropped (List.forall_mem_cons.mpr ⟨off, unhandled⟩)
  | handled stack unhandled goal handles detached =>
    exact .handled (congrArg (frame :: ·) stack) (List.forall_mem_cons.mpr ⟨off, unhandled⟩) goal
      handles detached

theorem unwinds_unwind {found : Option (List Frame)}
    (ran : (unwind frames).run.run agent = (.ok found, after)) :
    Unwinds agent frames found.isSome (found.getD []) := by
  induction frames generalizing agent with
  | nil =>
    cases ran
    exact .dropped fun _ member => nomatch member
  | cons frame below ih =>
    rw [unwind] at ran
    split at ran
    next goal =>
      obtain ⟨chosen, between, selected, ran⟩ := exists_of_run_bind ran
      have kept := deliberating_deliberated.keeps_selectPlan (.failure frame.instantiated) none agent
      rw [leaves, selected] at kept
      cases chosen with
      | none =>
        exact ((ih ran).earlier kept).cons fun _ =>
          ⟨agent, deliberating_deliberated.refl agent, selectPlan_none selected⟩
      | some handler =>
        cases ran
        obtain ⟨handles, detached⟩ := selectPlan_some selected
        exact .handled (List.nil_append _).symm (fun _ member => nomatch member) goal
          ⟨agent, deliberating_deliberated.refl agent, handles⟩ detached
    next other =>
      exact (ih ran).cons fun goal => absurd goal other

/-- A failure leaves the facts, the queue and the printed lines alone, and takes the intention down to
the nearest goal whose failure is handled. What lies below that goal is untouched. -/
theorem fail_unwinds {place reason : String} {alive : Bool}
    (ran : (fail intention place reason).run.run agent = (.ok (alive, next), after)) :
    Undisturbed agent after ∧ Unwinds agent intention.frames alive next.frames ∧
      next = intention.withFrames next.frames := by
  have kept := deliberating_undisturbed.keeps_fail intention place reason agent
  rw [leaves, ran] at kept
  refine ⟨kept, ?_⟩
  obtain ⟨_, between, reported, ran⟩ := exists_of_run_bind ran
  have before := deliberating_deliberated.keeps_reportNamed .info
    (s!"intention {intention.id} failed at " ++ place ++ ": " ++ reason) agent
  rw [leaves, reported] at before
  obtain ⟨found, _, unwound, ran⟩ := exists_of_run_bind ran
  have unwinds := (unwinds_unwind unwound).earlier before
  cases found with
  | some frames =>
    cases ran
    exact ⟨unwinds, rfl⟩
  | none =>
    obtain ⟨_, _, -, ⟨⟩⟩ := exists_of_run_bind ran
    exact ⟨unwinds, rfl⟩

/-- Of three goals waiting for each other, the innermost one fails. There is a plan for the failure of
the second one only, and the third one goes on waiting below it. -/
theorem fail_unwinds_nested :
    let pursuing := fun name => Frame.mk ⟨.goal (.atom name), .literal .truth, [], none⟩
      .empty (.atom name) [.statement (.achieve (.atom "next"))] none
    let agent := idle "a" {} [⟨.failure (.atom "g"), .literal .truth, [], none⟩] .empty 0
    let intention : Intention := ⟨1, [pursuing "h", pursuing "g", pursuing "f"], 3⟩
    ∃ handler next after,
      (fail intention "!next" "no plan").run.run agent = (.ok (true, next), after) ∧
        next.frames = [handler, pursuing "f"] ∧ Undisturbed agent after ∧
          Unwinds agent intention.frames true next.frames := by
  intro pursuing agent intention
  have ran : (fail intention "!next" "no plan").run.run agent = (.ok (true, _), _) := rfl
  obtain ⟨undisturbed, unwinds, -⟩ := fail_unwinds ran
  exact ⟨_, _, _, ran, rfl, undisturbed, unwinds⟩

end AgentSpeak.Agent
