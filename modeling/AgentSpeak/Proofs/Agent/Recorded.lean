import AgentSpeak.Proofs.Agent.Replay

namespace AgentSpeak.Agent

/-- What can be done with an agent: what it is told or asked, and what it takes to handle an
event. -/
inductive Operation where
  | perform (request : Request)
  | select (event : Trigger)
  | begin (frame : Frame)
  | step (intention : Intention)

namespace Operation

def run : Operation → AgentM Unit
  | .perform request => request.perform
  | .select event => do let _ ← selectPlan event none
  | .begin frame => do let _ ← Agent.begin frame
  | .step intention => do let _ ← Agent.step intention

/-- The bindings of all frames at work are acyclic. -/
def IsAcyclic : Operation → Prop
  | .step intention => ∀ frame ∈ intention.frames, frame.bindings.Acyclic
  | _ => True

end Operation

theorem keeps_operation {operation : Operation} (acyclic : operation.IsAcyclic) :
    Keeps Mirrors operation.run := by
  have book := bookkeeping_mirrors
  cases operation with
  | perform request =>
    cases request with
    | add fact => exact book.keeps_bind (keeps_addBelief fact) fun _ => book.keeps_pure _
    | remove pattern =>
      exact book.keeps_bind (keeps_removeBeliefs pattern) fun _ => book.keeps_pure _
    | achieve goal => exact keeps_achieve goal
    | query formula => exact book.keeps_bind (book.keeps_query formula) fun _ => book.keeps_pure _
  | select event =>
    exact book.keeps_bind (book.keeps_selectPlan event none) fun _ => book.keeps_pure _
  | begin frame => exact book.keeps_bind (book.keeps_begin frame) fun _ => book.keeps_pure _
  | step intention =>
    refine book.keeps_bind (book.keeps_step fun frame member => ?_) fun _ => book.keeps_pure _
    exact believing_mirrors (acyclic frame member)

/-- An agent after operations in any order, with the events that it has taken from its queue so
far. -/
inductive Recorded : List Trigger → Agent → Prop where
  | created (program : Program) (name : String) (limits : Limits) (actions : ActionTable)
      (begun : Nat) (journal : Journal) :
      Recorded [] (leaves (load program)
        { idle name limits program.plans actions begun with journal })
  /-- From now on the environment answers otherwise, and the output stream refuses other lines. -/
  | varied (before : Recorded taken agent) (actions : ActionTable)
      (stream : String → Option String) : Recorded taken { agent with actions, stream }
  /-- Other agents begin intentions, or the journal is written or read out. -/
  | noted (before : Recorded taken agent) (begun : Nat) (journal : Journal) :
      Recorded taken { agent with intentions := begun, journal }
  | took (before : Recorded taken agent) (queued : agent.events = event :: rest) :
      Recorded (taken ++ [event]) { agent with events := rest }
  | did (before : Recorded taken agent) (operation : Operation) (acyclic : operation.IsAcyclic) :
      Recorded taken (leaves operation.run agent)

variable {agent : Agent} {taken : List Trigger}

theorem Recorded.replayed (recorded : Recorded taken agent) :
    agent.beliefs.IsSet ∧ ∃ groups : List (List Trigger),
      taken ++ agent.events = groups.flatMap reported ∧
        replay? groups.flatten (factSet []) = some agent.believed := by
  induction recorded with
  | created program name limits actions begun journal =>
    exact keeps_load program { idle name limits program.plans actions begun with journal }
      BeliefBase.isSet_empty
  | varied before actions stream ih => exact ih
  | noted before begun journal ih => exact ih
  | took before queued ih =>
    rw [queued] at ih
    rwa [List.append_assoc]
  | did before operation acyclic ih =>
    obtain ⟨setBefore, groups, posted, replayed⟩ := ih
    obtain ⟨set, others, grown, replayedAgain⟩ := keeps_operation acyclic _ setBefore
    refine ⟨set, groups ++ others, ?_, ?_⟩
    · rw [grown, ← List.append_assoc, posted, List.flatMap_append]
    · rw [List.flatten_append, replay?_append, replayed, Option.bind_some, replayedAgain]

/-- The changes of belief come in groups of events, which are replayed from no facts at all to the
facts that are believed; and those of an operation, failing or not, from what was believed before it to
what is believed behind it. A group is posted as a whole, but if an event in it has no text, nothing of
it is. -/
theorem Recorded.mirrored (recorded : Recorded taken agent) :
    (∃ groups : List (List Trigger), taken ++ agent.events = groups.flatMap reported ∧
        replay? groups.flatten (factSet []) = some agent.believed) ∧
      ∀ operation : Operation, operation.IsAcyclic → ∃ groups : List (List Trigger),
        (leaves operation.run agent).events = agent.events ++ groups.flatMap reported ∧
          replay? groups.flatten agent.believed = some (leaves operation.run agent).believed := by
  obtain ⟨set, replayed⟩ := recorded.replayed
  exact ⟨replayed, fun operation acyclic => (keeps_operation acyclic agent set).2⟩

/-- A step that adds a number with 5001 digits changes the beliefs, but there is no event that says
so. -/
theorem Recorded.unreported :
    let digit (n : Int) : Term := .number (.int n)
    let adding : Frame :=
      { plan := ⟨.goal .truth, .literal .truth, [], none⟩, bindings := .empty, literal := .truth,
        tasks := [.statement (.add (.compound "n" [.compound "**" [digit 10, digit 5000]]))],
        callerGoal := none }
    let agent := idle "a" {} [] .empty 0
    let after := leaves (Operation.step ⟨0, [adding], 0⟩).run agent
    ¬∃ queued, after.events = agent.events ++ queued ∧
      replay? queued agent.believed = some after.believed := by
  intro digit adding agent after
  rintro ⟨queued, grown, replayed⟩
  have silent : after.events.isEmpty = true := by decide +kernel
  have learnt : agent.believed (.compound "n" [digit (10 ^ 5000)]) ≠
      after.believed (.compound "n" [digit (10 ^ 5000)]) := by
    decide +kernel
  rw [List.isEmpty_iff.mp silent] at grown
  obtain rfl : queued = [] := (List.nil_eq_append_iff.mp grown).2
  exact learnt (congrFun (Option.some.inj replayed) _)

/-- An intention that runs for some steps and has acyclic bindings before each of them. -/
def StaysAcyclic : Nat → Intention → Agent → Prop
  | 0, _, _ => True
  | fuel + 1, intention, agent =>
      (∀ frame ∈ intention.frames, frame.bindings.Acyclic) ∧
        ∀ next after, (step intention).run.run agent = (.ok (true, next), after) →
          StaysAcyclic fuel next after

theorem leaves_discarding {α : Type} (computation : AgentM α) (agent : Agent) :
    leaves (do let _ ← computation; return ()) agent = leaves computation agent := by
  rw [leaves, run_bind, leaves]
  rcases computation.run.run agent with ⟨fault | value, after⟩ <;> rfl

/-- The steps of an intention are operations one after the other. -/
theorem Recorded.runFor {intention : Intention} {fuel : Nat} (recorded : Recorded taken agent)
    (acyclic : StaysAcyclic fuel intention agent) :
    Recorded taken (leaves (runFor fuel intention) agent) := by
  induction fuel generalizing agent intention with
  | zero => exact recorded
  | succ fuel ih =>
    rw [Agent.runFor]
    split
    next => exact recorded
    next =>
      have stepped := recorded.did (.step intention) acyclic.1
      rw [Operation.run, leaves_discarding, leaves] at stepped
      rw [leaves, run_bind]
      rcases outcome : (step intention).run.run agent with ⟨fault | ⟨_ | _, next⟩, after⟩
      · rwa [outcome] at stepped
      · rwa [outcome] at stepped
      · rw [outcome] at stepped
        exact ih stepped (acyclic.2 next after outcome)

/-- Handling the next event is an operation after the other, if the intention for it keeps acyclic
bindings. -/
theorem Recorded.handle {event : Trigger} {rest : List Trigger} (recorded : Recorded taken agent)
    (queued : agent.events = event :: rest)
    (acyclic : ∀ frame middle intention after,
      (selectPlan event none).run.run { agent with events := rest } = (.ok (some frame), middle) →
      (begin frame).run.run middle = (.ok intention, after) →
      StaysAcyclic (stepBound after.limits) intention after) :
    Recorded (taken ++ [event]) (leaves (handle event) { agent with events := rest }) := by
  have selected := (recorded.took queued).did (.select event) trivial
  rw [Operation.run, leaves_discarding, leaves] at selected
  rw [Agent.handle, leaves, run_bind]
  rcases chosen : (selectPlan event none).run.run { agent with events := rest } with
    ⟨fault | _ | frame, middle⟩
  · rwa [chosen] at selected
  · obtain ⟨reported, journal, same⟩ := run_reportUnhandled event middle
    rw [chosen] at selected
    dsimp only
    rw [run_bind, same]
    cases reported <;> exact selected.noted middle.intentions journal
  · rw [chosen] at selected
    have begun := selected.did (.begin frame) trivial
    rw [Operation.run, leaves_discarding] at begun
    exact begun.runFor (acyclic frame middle _ _ chosen rfl)

end AgentSpeak.Agent
