import AgentSpeak.Action.HostValue
import AgentSpeak.Beliefs.Solver
import AgentSpeak.Log

namespace AgentSpeak

/-- A call of an environment action with the arguments it was given. -/
structure Call where
  action : String
  arguments : List Term

/-- What an agent has done so far; in each list the latest comes first. -/
structure Journal where
  output : List String
  calls : List Call
  log : List LogLine

structure Agent where
  name : String
  limits : Limits
  plans : List Plan
  actions : ActionTable
  beliefs : BeliefBase
  /-- The events still to handle, the oldest first. -/
  events : List Trigger
  /-- How many names the agent has made for renamings of its own. -/
  renamings : Nat
  intentions : Nat
  journal : Journal
  /-- Why the output stream refuses a line, if it does. -/
  stream : String → Option String := fun _ => none

/-- A computation of an agent, which changes it and may fail. What it did before it failed stays. -/
abbrev AgentM := ExceptT Fault (StateM Agent)

namespace Agent

/-- The lines that an agent has printed, in order. -/
def transcript (agent : Agent) : List String :=
  agent.journal.output.reverse

/-- The reports about an agent, in order. -/
def reports (agent : Agent) : List LogLine :=
  agent.journal.log.reverse

/-- The calls of environment actions, in order. -/
def calls (agent : Agent) : List Call :=
  agent.journal.calls.reverse

def record (change : Journal → Journal) : AgentM Unit :=
  modify fun agent => { agent with journal := change agent.journal }

def report (level : LogLevel) (message : String) : AgentM Unit :=
  record fun journal => { journal with log := ⟨level, message⟩ :: journal.log }

/-- Adds a report that begins with the agent's name. -/
def reportNamed (level : LogLevel) (message : String) : AgentM Unit := do
  report level ("[" ++ (← get).name ++ "] " ++ message)

def ofExcept {α : Type} (result : Except Fault α) : AgentM α :=
  ExceptT.mk (pure result)

/-- Goes on only if what is about to be written has a text. -/
def written (writable : Bool) : AgentM Unit :=
  ofExcept (if writable then .ok () else .error .unwritable)

/-- Adds a line to the transcript, and then writes it to the output stream. -/
def print (text : String) : AgentM Unit := do
  record fun journal => { journal with output := text :: journal.output }
  ofExcept (((← get).stream text).elim (.ok ()) fun reason => .error (.unencodable reason))

/-- Puts an event at the end of the queue. -/
def post (trigger : Trigger) : AgentM Unit := do
  written trigger.isWritable
  reportNamed .debug ("event " ++ trigger.render)
  modify fun agent => { agent with events := agent.events ++ [trigger] }

/-- A number that no earlier renaming of this agent has used. -/
def freshNumber : AgentM Nat := do
  modify fun agent => { agent with renamings := agent.renamings + 1 }
  return (← get).renamings

/-- An operation on the beliefs and its reports. What it has changed stays, also if it fails. -/
def revise {α : Type} (change : BeliefBase → BeliefBase.Revision α) : AgentM α := do
  let revision := change (← get).beliefs
  modify fun agent => { agent with beliefs := revision.base }
  revision.reports.forM (report .debug)
  ofExcept revision.outcome

/-- The outcome of a search of the belief base. -/
def searching {α : Type} (search : BeliefBase → Except Fault α × BeliefBase) : AgentM α := do
  let (result, beliefs) := search (← get).beliefs
  modify fun agent => { agent with beliefs }
  ofExcept result

def holds (formula : Formula) (θ : Substitution) : AgentM (Option Substitution) := do
  let search := Search.solve (← get).limits formula θ
  searching (·.first search)

def answers (formula : Formula) (θ : Substitution) : AgentM (List Substitution) := do
  let search := Search.solve (← get).limits formula θ
  searching (·.answers search)

/-- A term with its variables replaced and its arithmetic computed. -/
def resolve (θ : Substitution) (term : Term) : AgentM Term :=
  ofExcept (θ.resolve term)

/-- Adds a belief. A new one is an event. -/
def addBelief (fact : Term) : AgentM Bool := do
  let added ← revise (·.asserting fact)
  if added then post (.believed fact)
  return added

/-- Gives up every belief that is an instance of a pattern. Each of them is an event. -/
def removeBeliefs (pattern : Term) : AgentM (List Term) := do
  let occursCheck := (← get).limits.occursCheck
  let removed ← revise (·.retracting occursCheck pattern)
  removed.forM fun fact => post (.dropped fact)
  return removed

def achieve (goal : Term) : AgentM Unit :=
  post (.goal goal)

end Agent

end AgentSpeak
