import AgentSpeak.Agent.Cycle
import AgentSpeak.Proofs.Agent.Stack
import AgentSpeak.Proofs.Program.Wildcards

/-!
Reachable states. An agent begins with a program. Between events it is told and asked things, for an
event it begins an intention, and this one takes its steps; meanwhile the environment and other
agents go on.
-/

namespace AgentSpeak

/-- A program whose variables have names as they are read. -/
structure Program.IsWritten (program : Program) : Prop where
  rules : ∀ rule ∈ program.rules, rule.head.Over Variable.IsWritten ∧
    rule.body.Over Variable.IsWritten
  goals : ∀ goal ∈ program.goals, goal.Over Variable.IsWritten
  plans : ∀ plan ∈ program.plans, ∀ v ∈ plan.vars, v.IsWritten

/-- All variables of a program are allowed, but for those of labels and of beliefs, which have
none. -/
structure Program.Over (allowed : Variable → Prop) (program : Program) : Prop where
  rules : ∀ rule ∈ program.rules, rule.Over allowed
  goals : ∀ goal ∈ program.goals, goal.Over allowed
  plans : ∀ plan ∈ program.plans, ∀ v ∈ plan.vars, allowed v

theorem Program.IsWritten.over {program : Program} (written : program.IsWritten) :
    program.Over Variable.IsWritten where
  rules rule member := List.forall_mem_append.mpr (written.rules rule member)
  goals := written.goals
  plans := written.plans

section Reading

variable {text : String} {strict : Bool} {reading : Program.Reading}

/-- What is read from a text has names as they are read. -/
theorem Program.over_of_read (done : Program.read text strict = .ok reading) :
    reading.program.Over Variable.IsRead := by
  have read := isRead_of_mem_vars done
  refine ⟨fun rule member v occurs => read v ?_, fun goal member v occurs => read v ?_,
    fun plan member v occurs => read v ?_⟩
  · simpa [vars] using .inr (.inl ⟨rule, member, occurs⟩)
  · simpa [vars] using .inr (.inr (.inl ⟨goal, member, occurs⟩))
  · simpa [vars] using .inr (.inr (.inr ⟨plan, member, occurs⟩))

theorem Program.isWritten_of_read (done : Program.read text strict = .ok reading) :
    reading.program.IsWritten := by
  have names := over_of_read done
  refine ⟨fun rule member => List.forall_mem_append.mp ?_, fun goal member v occurs => ?_,
    fun plan member v occurs => ?_⟩
  · exact fun v occurs => (names.rules rule member v occurs).1
  · exact (names.goals goal member v occurs).1
  · exact (names.plans plan member v occurs).1

end Reading

namespace Agent

/-- What an agent is told or asked between events. -/
inductive Request where
  | add (fact : Term)
  | remove (pattern : Term)
  | achieve (goal : Term)
  | query (formula : Formula)

namespace Request

/-- The variables of a request. -/
def vars : Request → List Variable
  | .add fact => fact.vars
  | .remove pattern => pattern.vars
  | .achieve goal => goal.vars
  | .query formula => formula.vars

/-- Does what is requested. -/
def perform : Request → AgentM Unit
  | .add fact => do let _ ← addBelief fact
  | .remove pattern => do let _ ← removeBeliefs pattern
  | .achieve goal => Agent.achieve goal
  | .query formula => do let _ ← Agent.query formula

end Request

/-- The agent that a computation leaves, whether it fails or not. -/
def leaves {α : Type} (computation : AgentM α) (agent : Agent) : Agent :=
  (computation.run.run agent).2

/-- The turns of an agent and of the intention that it has under way, where authors use variables of a
source. The action tables of an environment are those that it can have at one time or another. -/
inductive Turn (source : Variable → Prop) (environment : ActionTable → Prop) :
    Agent → Option Intention → Agent → Option Intention → Prop where
  /-- From now on the environment answers otherwise, and the output stream refuses other lines. -/
  | varied {actions : ActionTable} (acts : environment actions) (stream : String → Option String) :
      Turn source environment agent current { agent with actions, stream } current
  /-- Other agents begin intentions, or the journal is written or read out. -/
  | noted (begun : Nat) (journal : Journal) :
      Turn source environment agent current { agent with intentions := begun, journal } current
  | asked (request : Request) (given : ∀ v ∈ request.vars, source v) :
      Turn source environment agent none (leaves request.perform agent) none
  /-- A plan is chosen for the next event. -/
  | began (queued : agent.events = trigger :: rest)
      (chosen : (selectPlan trigger none).run.run { agent with events := rest } =
        (.ok (some frame), middle))
      (begun : (begin frame).run.run middle = (.ok intention, after)) :
      Turn source environment agent none after (some intention)
  /-- No plan applies to the next event, or the choice fails. -/
  | passed (queued : agent.events = trigger :: rest)
      (chosen : (selectPlan trigger none).run.run { agent with events := rest } = (outcome, after))
      (refused : ∀ frame, outcome ≠ .ok (some frame)) :
      Turn source environment agent none after none
  | stepped (done : (step intention).run.run agent = (.ok (true, next), after)) :
      Turn source environment agent (some intention) after (some next)
  /-- The intention is dropped, or its step fails. -/
  | stopped (done : (step intention).run.run agent = (outcome, after))
      (last : ∀ next, outcome ≠ .ok (true, next)) :
      Turn source environment agent (some intention) after none
  | ended (done : intention.isDone = true) :
      Turn source environment agent (some intention) agent none

/-- An agent with these limits in an environment, and the intention that it has under way, where
authors use variables of a source. -/
inductive Reachable (source : Variable → Prop) (limits : Limits)
    (environment : ActionTable → Prop) : Agent → Option Intention → Prop where
  | created (program : Program) (given : program.Over source) {actions : ActionTable}
      (acts : environment actions) (name : String) (begun : Nat) (journal : Journal) :
      Reachable source limits environment
        (leaves (load program) { idle name limits program.plans actions begun with journal }) none
  | turned (before : Reachable source limits environment agent current)
      (turn : Turn source environment agent current after next) :
      Reachable source limits environment after next

variable {α : Type} {source : Variable → Prop} {agent after : Agent} {limits : Limits}
  {environment : ActionTable → Prop} {current next : Option Intention}

/-- The agent of a program that was read is reachable. -/
theorem reachable_ofReading {reading : Program.Reading} (given : reading.program.Over source)
    {actions : ActionTable} (acts : environment actions) (name : String) (begun : Nat) :
    Reachable source limits environment (ofReading reading name limits actions begun) none :=
  .created reading.program given acts name begun _

/-- Running an intention for some steps goes through reachable states only. -/
theorem Reachable.runFor {intention : Intention}
    (reachable : Reachable source limits environment agent (some intention)) (fuel : Nat) :
    ∃ current, Reachable source limits environment (leaves (runFor fuel intention) agent)
      current := by
  induction fuel generalizing agent intention with
  | zero => exact ⟨_, reachable⟩
  | succ fuel ih =>
    by_cases done : intention.isDone = true
    · rw [Agent.runFor, if_pos done]
      exact ⟨none, reachable.turned (.ended done)⟩
    · rw [Agent.runFor, if_neg done, leaves, run_bind]
      rcases outcome : (step intention).run.run agent with ⟨fault | ⟨_ | _, next⟩, after⟩
      · exact ⟨none, reachable.turned (.stopped outcome fun _ => nofun)⟩
      · exact ⟨none, reachable.turned (.stopped outcome fun _ => nofun)⟩
      · exact ih (reachable.turned (.stepped outcome))

/-- An event without a plan leaves reports, if it has a text, and nothing else. -/
theorem run_reportUnhandled (trigger : Trigger) (agent : Agent) : ∃ outcome journal,
    (reportUnhandled trigger).run.run agent = (outcome, { agent with journal }) := by
  unfold reportUnhandled
  cases trigger.isWritable with
  | false => exact ⟨.error .unwritable, agent.journal, rfl⟩
  | true =>
    by_cases about : trigger.subject = .belief
    · rw [if_pos about]
      exact ⟨.ok (), _, rfl⟩
    · rw [if_neg about]
      exact ⟨.ok (), _, rfl⟩

/-- Handling the next event leads to a reachable state. -/
theorem Reachable.handle {trigger : Trigger} {rest : List Trigger}
    (reachable : Reachable source limits environment agent none)
    (queued : agent.events = trigger :: rest) :
    ∃ current, Reachable source limits environment
      (leaves (handle trigger) { agent with events := rest }) current := by
  rw [Agent.handle, leaves, run_bind]
  rcases chosen : (selectPlan trigger none).run.run { agent with events := rest } with
    ⟨fault | _ | frame, middle⟩
  · exact ⟨none, reachable.turned (.passed queued chosen fun _ => nofun)⟩
  · have passed := reachable.turned (.passed queued chosen fun _ => nofun)
    obtain ⟨reported, journal, same⟩ := run_reportUnhandled trigger middle
    refine ⟨none, ?_⟩
    dsimp only
    rw [run_bind, same]
    cases reported <;> exact passed.turned (.noted middle.intentions journal)
  · exact (reachable.turned (.began queued chosen rfl)).runFor _

end Agent

namespace Watch

open Agent

/-- What is requested of a watched agent. -/
def serve : Request → WatchM Unit
  | .add fact => do let _ ← quietly (addBelief fact)
  | .remove pattern => do let _ ← quietly (removeBeliefs pattern)
  | .achieve goal => quietly (achieve goal)
  | .query formula => do let _ ← query formula

theorem erases_serve (request : Request) : Erases (serve request) request.perform := by
  cases request with
  | add fact | remove pattern => exact (erases_quietly _).bind fun _ => erases_pure _
  | achieve goal => exact erases_quietly _
  | query formula => exact (erases_query formula).bind fun _ => erases_pure _

/-- The turns of an agent that is watched, whose requests have variables of the source. -/
inductive Turn (source : Variable → Prop) (environment : ActionTable → Prop) :
    Watch → Option Intention → Watch → Option Intention → Prop where
  | varied {actions : ActionTable} (acts : environment actions) (stream : String → Option String) :
      Turn source environment watch current
        { watch with agent := { watch.agent with actions, stream } } current
  | noted (begun : Nat) (journal : Journal) :
      Turn source environment watch current
        { watch with agent := { watch.agent with intentions := begun, journal } } current
  | asked (request : Request) (given : ∀ v ∈ request.vars, source v) :
      Turn source environment watch none ((serve request).run.run watch).2 none
  | began (queued : watch.agent.events = trigger :: rest)
      (chosen : (selectPlan trigger none).run.run
        { watch with agent := { watch.agent with events := rest } } = (.ok (some frame), middle))
      (begun : (quietly (begin frame)).run.run middle = (.ok intention, after)) :
      Turn source environment watch none after (some intention)
  | passed (queued : watch.agent.events = trigger :: rest)
      (chosen : (selectPlan trigger none).run.run
        { watch with agent := { watch.agent with events := rest } } = (outcome, after))
      (refused : ∀ frame, outcome ≠ .ok (some frame)) :
      Turn source environment watch none after none
  | stepped (done : (step intention).run.run watch = (.ok (true, next), after)) :
      Turn source environment watch (some intention) after (some next)
  | stopped (done : (step intention).run.run watch = (outcome, after))
      (last : ∀ next, outcome ≠ .ok (true, next)) :
      Turn source environment watch (some intention) after none
  | ended (done : intention.isDone = true) :
      Turn source environment watch (some intention) watch none

variable {α : Type} {source : Variable → Prop} {since : Nat} {watch after : Watch}
  {environment : ActionTable → Prop} {current next : Option Intention}

/-- The turns of a watched agent are turns of the agent. -/
theorem Turn.unwatched (turn : Turn source environment watch current after next) :
    Agent.Turn source environment watch.agent current after.agent next := by
  cases turn with
  | varied acts stream => exact .varied acts stream
  | noted begun journal => exact .noted begun journal
  | asked request given =>
    have served : leaves request.perform watch.agent = ((serve request).run.run watch).2.agent :=
      congrArg Prod.snd (erases_serve request watch)
    exact served ▸ .asked request given
  | began queued chosen begun =>
    have choosing := (erases_selectPlan _ none _).trans (by rw [chosen])
    exact .began queued choosing ((erases_quietly _ _).trans (by rw [begun]))
  | passed queued chosen refused =>
    exact .passed queued ((erases_selectPlan _ none _).trans (by rw [chosen])) refused
  | stepped done => exact .stepped ((erases_step _ watch).trans (by rw [done]))
  | stopped done last => exact .stopped ((erases_step _ watch).trans (by rw [done])) last
  | ended done => exact .ended done

theorem Erases.run {watched : WatchM α} {computation : AgentM α} {agent after : Agent}
    {outcome : Except Fault α} (erases : Erases watched computation)
    (ran : computation.run.run agent = (outcome, after)) (applied : List Application) :
    ∃ later, watched.run.run ⟨agent, applied⟩ = (outcome, ⟨after, later⟩) := by
  have same := erases ⟨agent, applied⟩
  rw [ran] at same
  rcases whole : watched.run.run ⟨agent, applied⟩ with ⟨ending, last⟩
  rw [whole] at same
  cases same
  exact ⟨last.applied, rfl⟩

/-- Every turn of an agent can be watched. -/
theorem exists_turn {agent later : Agent}
    (turn : Agent.Turn source environment agent current later next) (applied : List Application) :
    ∃ more, Turn source environment ⟨agent, applied⟩ current ⟨later, more⟩ next := by
  cases turn with
  | varied acts stream => exact ⟨applied, .varied acts stream⟩
  | noted begun journal => exact ⟨applied, .noted begun journal⟩
  | asked request given =>
    have served : request.perform.run.run agent = (_, leaves request.perform agent) := rfl
    obtain ⟨more, ran⟩ := (erases_serve request).run served applied
    have turn : Turn source environment ⟨agent, applied⟩ none _ none := .asked request given
    rw [ran] at turn
    exact ⟨more, turn⟩
  | began queued chosen begun =>
    obtain ⟨more, choosing⟩ := (erases_selectPlan _ none).run chosen applied
    obtain ⟨last, beginning⟩ := (erases_quietly _).run begun more
    exact ⟨last, .began queued choosing beginning⟩
  | passed queued chosen refused =>
    obtain ⟨more, choosing⟩ := (erases_selectPlan _ none).run chosen applied
    exact ⟨more, .passed queued choosing refused⟩
  | stepped done =>
    obtain ⟨more, ran⟩ := (erases_step _).run done applied
    exact ⟨more, .stepped ran⟩
  | stopped done last =>
    obtain ⟨more, ran⟩ := (erases_step _).run done applied
    exact ⟨more, .stopped ran last⟩
  | ended done => exact ⟨applied, .ended done⟩

theorem ensures_load (named : watch.IsNamed source since) {program : Program}
    (ranges : program.Over source) :
    Ensures source since watch (quietly (load program)) fun _ _ => True := by
  have ordered (rules : List Rule) {base : BeliefBase} (start : base.Ordered) :
      (rules.foldl BeliefBase.addRule base).Ordered := by
    induction rules generalizing base with
    | nil => exact start
    | cons rule rest ih => exact ih (start.addRule rule)
  obtain ⟨plans, beliefs, rules, events, replies⟩ := named.agent
  have counted := watch.agent.beliefs.renamings_addRules program.rules
  have loaded : Agent.IsNamed source { watch.agent with
      beliefs := program.rules.foldl BeliefBase.addRule watch.agent.beliefs } := by
    refine ⟨plans, ordered program.rules beliefs, fun rule member => ?_, fun trigger member => ?_,
      replies⟩
    · exact (BeliefBase.mem_rules_addRules member).elim (rules rule) (ranges.rules rule)
    · exact (events trigger member).mono fun v made => made.mono counted.ge (Nat.le_refl _)
  refine (ensures_modify named loaded counted (Nat.le_refl _)).next ?_
  rintro _ _ - named' rfl
  refine (ensures_forM named' fun fact _ agent named =>
    (ensures_addBelief named fact).next fun _ _ _ named _ =>
      ensures_quietly_pure named trivial).next ?_
  rintro _ added - named'' -
  refine ensures_forM named'' fun goal member agent named => ensures_post named ?_
  exact fun v inside => .given (ranges.goals goal member v inside)

theorem ensures_serve {request : Request} (named : watch.IsNamed source since)
    (given : ∀ v ∈ request.vars, source v) :
    Ensures source since watch (serve request) fun _ _ => True := by
  cases request with
  | add fact =>
    exact (ensures_addBelief named fact).bind fun _ _ _ named' _ => ensures_pure named' trivial
  | remove pattern =>
    exact (ensures_removeBeliefs named pattern).bind
      fun _ _ _ named' _ => ensures_pure named' trivial
  | achieve goal => exact ensures_post named fun v member => .given (given v member)
  | query formula =>
    exact (ensures_query named fun v member => .given (given v member)).bind
      fun _ _ _ named' _ => ensures_pure named' trivial

theorem ensures_begin (named : watch.IsNamed source since) {frame : Frame}
    (ranges : frame.Over (watch.Known source)) :
    Ensures source since watch (quietly (begin frame)) fun intention after =>
      intention.frames = [frame] ∧ AllKnown (after.Known source) intention.frames := by
  obtain ⟨plans, beliefs, rules, events, replies⟩ := named.agent
  refine (ensures_modify named ⟨plans, beliefs, rules, events, replies⟩ rfl (Nat.le_refl _)).next ?_
  rintro _ after later named' rfl
  refine (ensures_get named').next ?_
  rintro _ _ - - ⟨rfl, rfl⟩
  exact ensures_quietly_pure named' ⟨rfl, List.forall_mem_singleton.mpr ranges⟩

/-- The frame chosen for an event from the queue waits for nobody. -/
theorem ensures_choice (named : watch.IsNamed source since) {trigger : Trigger}
    {rest : List Trigger} (queued : watch.agent.events = trigger :: rest) :
    Ensures source since { watch with agent := { watch.agent with events := rest } }
      (selectPlan trigger none) fun found after => ∀ frame, found = some frame →
        frame.Over (after.Known source) ∧ Answers trigger none frame := by
  obtain ⟨plans, beliefs, rules, events, replies⟩ := named.agent
  rw [queued] at events
  obtain ⟨first, others⟩ := List.forall_mem_cons.mp events
  have shorter : IsNamed source since { watch with agent := { watch.agent with events := rest } } :=
    named.withAgent ⟨plans, beliefs, rules, others, replies⟩ rfl (Nat.le_refl _)
  exact ensures_selectPlan shorter none first fun _ same => by cases same

/-- The names of an agent that is watched and of its intention are in order. -/
structure InOrder (source : Variable → Prop) (since : Nat) (watch : Watch)
    (current : Option Intention) : Prop where
  named : watch.IsNamed source since
  known : ∀ intention, current = some intention →
    AllKnown (watch.Known source) intention.frames

theorem IsNamed.idle (named : watch.IsNamed source since) : InOrder source since watch none :=
  ⟨named, nofun⟩

theorem InOrder.turn (order : InOrder source since watch current)
    (replies : ∀ actions, environment actions → actions.RepliesGround)
    (turn : Turn source environment watch current after next) :
    InOrder source since after next ∧ watch.Precedes after := by
  obtain ⟨named, known⟩ := order
  cases turn with
  | @varied _ _ actions acts stream =>
    obtain ⟨plans, beliefs, rules, events, -⟩ := named.agent
    have varied : Agent.IsNamed source { watch.agent with actions, stream } :=
      ⟨plans, beliefs, rules, events, replies actions acts⟩
    exact ⟨⟨named.withAgent varied rfl (Nat.le_refl _), known⟩, Nat.le_refl _, Nat.le_refl _⟩
  | noted begun journal =>
    obtain ⟨plans, beliefs, rules, events, replies⟩ := named.agent
    have noted : Agent.IsNamed source { watch.agent with intentions := begun, journal } :=
      ⟨plans, beliefs, rules, events, replies⟩
    exact ⟨⟨named.withAgent noted rfl (Nat.le_refl _), known⟩, Nat.le_refl _, Nat.le_refl _⟩
  | asked request given =>
    have served := ensures_serve named given
    exact ⟨served.named.idle, served.later⟩
  | began queued chosen begun =>
    obtain ⟨later, named', own⟩ := ensures_choice named queued
    rw [chosen] at later named' own
    obtain ⟨frameOver, -⟩ := own _ rfl _ rfl
    obtain ⟨more, named'', own'⟩ := ensures_begin named' frameOver
    rw [begun] at more named'' own'
    refine ⟨⟨named'', ?_⟩, Precedes.trans ⟨later.rules, later.own⟩ more⟩
    rintro _ ⟨⟩
    exact (own' _ rfl).2
  | passed queued chosen refused =>
    obtain ⟨later, named', -⟩ := ensures_choice named queued
    rw [chosen] at later named'
    exact ⟨named'.idle, later.rules, later.own⟩
  | stepped done =>
    obtain ⟨later, named', own⟩ := stepsTo_step named (known _ rfl)
    rw [done] at later named' own
    refine ⟨⟨named', ?_⟩, later⟩
    rintro _ ⟨⟩
    exact (own _ rfl).2
  | stopped done last =>
    obtain ⟨later, named', -⟩ := stepsTo_step named (known _ rfl)
    rw [done] at later named'
    exact ⟨named'.idle, later⟩
  | ended done => exact ⟨named.idle, .refl _⟩

end Watch

namespace Agent

variable {source : Variable → Prop} {agent after : Agent} {limits : Limits}
  {environment : ActionTable → Prop} {current : Option Intention}

/-- The names of an agent and of its intention are in order. -/
structure InOrder (source : Variable → Prop) (agent : Agent) (current : Option Intention) :
    Prop where
  named : agent.IsNamed source
  known : ∀ intention, current = some intention → AllKnown (agent.Known source) intention.frames

/-- In an environment that returns ground terms, the names of agents stay in order. -/
theorem Reachable.inOrder (replies : ∀ actions, environment actions → actions.RepliesGround)
    (reachable : Reachable source limits environment agent current) :
    InOrder source agent current := by
  induction reachable with
  | created program given acts name begun journal =>
    have idle : IsNamed source { idle name limits program.plans _ begun with journal } :=
      ⟨given.plans, BeliefBase.ordered_empty, nofun, nofun, replies _ acts⟩
    have loaded := Watch.ensures_load (Watch.isNamed_started idle) given
    exact ⟨loaded.named.agent, nofun⟩
  | turned before turn ih =>
    obtain ⟨more, watched⟩ := Watch.exists_turn turn []
    obtain ⟨⟨named, known⟩, -⟩ :=
      Watch.InOrder.turn ⟨Watch.isNamed_started ih.named, ih.known⟩ replies watched
    exact ⟨named.agent, known⟩

theorem Reachable.moves (replies : ∀ actions, environment actions → actions.RepliesGround)
    {intention next : Intention}
    (before : Reachable source limits environment agent (some intention))
    (done : (step intention).run.run agent = (.ok (true, next), after)) :
    Moves intention.frames next.frames := by
  obtain ⟨named, known⟩ := before.inOrder replies
  obtain ⟨_, -, own⟩ := (Watch.stepsTo_step (Watch.isNamed_started named) (known _ rfl)).of_run
    (Watch.erases_step _) done
  exact (own _ rfl).1

end Agent

end AgentSpeak
