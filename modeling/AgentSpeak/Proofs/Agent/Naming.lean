import AgentSpeak.Proofs.Agent.Watching
import AgentSpeak.Proofs.Beliefs.Applying

/-!
Names in agents and intentions. Plans and rules have variables of a source, and whatever an agent
makes of them has variables that have come up by then. Each rule that it applies has the next number,
and what it is applied to has variables that came up before.
-/

namespace AgentSpeak

/-- The variables of a task. -/
def Task.vars : Task → List Variable
  | .statement step => step.vars
  | .retest condition body fresh => condition.vars ++ Statement.varsAll body ++ fresh

/-- A frame has a variable anywhere: in its plan, its bindings, the literal of its event, the tasks
left to do or the goal that its caller waits for. -/
inductive Frame.Mentions (frame : Frame) (v : Variable) : Prop where
  | plan (member : v ∈ frame.plan.vars)
  | bound (found : frame.bindings.find? v = some term)
  | value (found : frame.bindings.find? w = some term) (member : v ∈ term.vars)
  | literal (member : v ∈ frame.literal.vars)
  | task (left : task ∈ frame.tasks) (member : v ∈ task.vars)
  | goal (waits : frame.callerGoal = some goal) (member : v ∈ goal.vars)

/-- All variables of a frame are allowed. -/
structure Frame.Over (allowed : Variable → Prop) (frame : Frame) : Prop where
  plan : ∀ v ∈ frame.plan.vars, allowed v
  bindings : frame.bindings.Over allowed
  literal : frame.literal.Over allowed
  tasks : ∀ task ∈ frame.tasks, ∀ v ∈ task.vars, allowed v
  goal : ∀ goal, frame.callerGoal = some goal → goal.Over allowed

theorem Frame.Over.of_mentions {allowed : Variable → Prop} {frame : Frame} {v : Variable}
    (ranges : frame.Over allowed) (mentions : frame.Mentions v) : allowed v := by
  cases mentions with
  | plan member => exact ranges.plan v member
  | bound found => exact ranges.bindings.bound v _ found
  | value found member => exact ranges.bindings.values _ _ found v member
  | literal member => exact ranges.literal v member
  | task left member => exact ranges.tasks _ left v member
  | goal waits member => exact ranges.goal _ waits v member

theorem Frame.Over.mono {allowed wider : Variable → Prop} {frame : Frame}
    (ranges : frame.Over allowed) (more : ∀ v, allowed v → wider v) : frame.Over wider where
  plan := fun v member => more v (ranges.plan v member)
  bindings := ranges.bindings.mono more
  literal := ranges.literal.mono more
  tasks := fun task left v member => more v (ranges.tasks task left v member)
  goal := fun goal waits => (ranges.goal goal waits).mono more

/-- The actions of an environment return no terms with variables. -/
def ActionTable.RepliesGround (table : ActionTable) : Prop :=
  ∀ name action, table.find? name = some action → ∀ arguments fields,
    action arguments = .record fields → ∀ field ∈ fields, ∀ term,
      field.2.toTerm = .ok term → term.isGround = true

/-- The variables that have come up by now, where rules and plans have those of the source. -/
abbrev Agent.Known (source : Variable → Prop) (agent : Agent) : Variable → Prop :=
  Variable.Made source agent.beliefs.renamings agent.renamings

/-- Plans and rules have variables of the source, facts are ground, the actions of the environment
return ground terms, and events have variables that have come up. -/
structure Agent.IsNamed (source : Variable → Prop) (agent : Agent) : Prop where
  plans : ∀ plan ∈ agent.plans, ∀ v ∈ plan.vars, source v
  beliefs : agent.beliefs.Ordered
  rules : ∀ rule ∈ agent.beliefs.rules, rule.Over source
  events : ∀ trigger ∈ agent.events, trigger.literal.Over (agent.Known source)
  replies : agent.actions.RepliesGround

namespace Watch

variable {source : Variable → Prop} {since : Nat} {watch after : Watch} {agent : Agent}

/-- The variables that have come up while an agent was watched. -/
abbrev Known (source : Variable → Prop) (watch : Watch) : Variable → Prop :=
  watch.agent.Known source

/-- The rules that were applied since a renaming have the numbers behind it, one by one, and what
they were applied to had variables that came up before. -/
structure IsNamed (source : Variable → Prop) (since : Nat) (watch : Watch) : Prop where
  agent : watch.agent.IsNamed source
  counted : watch.agent.beliefs.renamings = since + watch.applied.length
  numbers : watch.applied.map Application.number = List.range' (since + 1) watch.applied.length
  fits : ∀ application ∈ watch.applied, application.Fits source watch.agent.renamings

/-- An agent that is watched from now on. -/
theorem isNamed_started (named : agent.IsNamed source) :
    IsNamed source agent.beliefs.renamings ⟨agent, []⟩ :=
  ⟨named, rfl, rfl, fun _ member => nomatch member⟩

/-- The numbers of renamings only grow. -/
structure Precedes (watch after : Watch) : Prop where
  rules : watch.agent.beliefs.renamings ≤ after.agent.beliefs.renamings
  own : watch.agent.renamings ≤ after.agent.renamings

theorem Precedes.refl (watch : Watch) : watch.Precedes watch :=
  ⟨Nat.le_refl _, Nat.le_refl _⟩

theorem Precedes.trans {last : Watch} (first : watch.Precedes after)
    (second : after.Precedes last) : watch.Precedes last :=
  ⟨Nat.le_trans first.rules second.rules, Nat.le_trans first.own second.own⟩

/-- What has come up stays known. -/
theorem Precedes.known (later : watch.Precedes after) (v : Variable) (known : watch.Known source v) :
    after.Known source v :=
  known.mono later.rules later.own

/-- The agent is another one, which has applied no more rules. -/
theorem IsNamed.withAgent (named : watch.IsNamed source since) (other : agent.IsNamed source)
    (rules : agent.beliefs.renamings = watch.agent.beliefs.renamings)
    (own : watch.agent.renamings ≤ agent.renamings) :
    IsNamed source since { watch with agent } where
  agent := other
  counted := rules.trans named.counted
  numbers := named.numbers
  fits application member := (named.fits application member).mono own

end Watch

end AgentSpeak
