import AgentSpeak.Agent.Cycle
import AgentSpeak.Server.Json

namespace AgentSpeak.Agent

/-- The fields that describe an agent's state. -/
def fields (agent : Agent) : List (String × Json) :=
  [("name", .string agent.name),
    ("beliefs", .strings (agent.beliefs.facts.map Term.render)),
    ("rules", .nat agent.beliefs.rules.length),
    ("plans", .nat agent.plans.length),
    ("pending_events", .strings (agent.events.map Trigger.render))]

/-- Whether an agent's state can be described. -/
def isWritable (agent : Agent) : Bool :=
  agent.beliefs.facts.all Term.isWritable && agent.events.all Trigger.isWritable

/-- The fields that describe a run: events handled, events still pending, and what was printed
meanwhile. -/
def workFields (handled pending : Nat) (output : List String) : List (String × Json) :=
  [("handled", .nat handled), ("pending", .nat pending), ("output", .strings output)]

/-- Handles queued events and describes the run. -/
def work (maxCycles : Option Int) : AgentM (List (String × Json)) := do
  let before := (← get).transcript.length
  let handled ← run maxCycles
  let agent ← get
  return workFields handled agent.events.length (agent.transcript.drop before)

end AgentSpeak.Agent

namespace AgentSpeak

/-- An agent in a store, with the program it came from. -/
structure AgentRecord where
  id : String
  agent : Agent
  source : String
  createdAt : String
  errors : List Source.ParseError

namespace AgentRecord

/-- The errors of the clauses that were left out of the program. -/
def errorTexts (record : AgentRecord) : Json :=
  .strings (record.errors.map Source.ParseError.report)

/-- The fields that describe an agent in full. -/
def fields (record : AgentRecord) : List (String × Json) :=
  [("id", .string record.id), ("created_at", .string record.createdAt)] ++ record.agent.fields ++
    [("errors", record.errorTexts), ("transcript", .strings record.agent.transcript)]

/-- The fields that describe an agent in short. -/
def summary (record : AgentRecord) : List (String × Json) :=
  [("id", .string record.id), ("name", .string record.agent.name),
    ("created_at", .string record.createdAt),
    ("belief_count", .nat record.agent.beliefs.size),
    ("plan_count", .nat record.agent.plans.length)]

end AgentRecord

/-- Agents in order of creation. -/
structure Store where
  limits : Limits
  now : String
  records : List AgentRecord
  created : Nat
  /-- How many intentions the agents have begun together. -/
  intentions : Nat
  /-- What the agents have reported, the latest first. -/
  log : List LogLine

namespace Store

def empty (limits : Limits) (now : String) : Store :=
  ⟨limits, now, [], 0, 0, []⟩

def find? (store : Store) (id : String) : Option AgentRecord :=
  store.records.find? (·.id == id)

def idOf (n : Nat) : String :=
  Text.hexadecimal 12 n

/-- A new agent from the text of a program. -/
def create (store : Store) (name source : String) (lenient : Bool) :
    Except Source.ParseError (AgentRecord × Store) := do
  let reading ← Program.read source !lenient
  let agent := Agent.ofReading reading name store.limits .empty store.intentions
  let id := idOf (store.created + 1)
  let quiet := { agent with journal := { agent.journal with log := [] } }
  let record : AgentRecord := ⟨id, quiet, source, store.now, reading.errors⟩
  let note : LogLine := ⟨.info, "created agent " ++ id ++ " (" ++ name ++ ")"⟩
  return (record, { store with
    records := store.records ++ [record]
    created := store.created + 1
    log := note :: (agent.journal.log ++ store.log) })

/-- The store without the agent of an id. -/
def delete (store : Store) (id : String) : Store :=
  { store with records := store.records.filter (·.id != id) }

/-- The store with an agent as its work left it. Reports move from the agent to the store. -/
def settle (store : Store) (id : String) (agent : Agent) : Store :=
  let quiet := { agent with journal := { agent.journal with log := [] } }
  { store with
    records := store.records.map fun record =>
      if record.id == id then { record with agent := quiet } else record
    intentions := agent.intentions
    log := agent.journal.log ++ store.log }

/-- Lets the agent of a record work. -/
def perform {α : Type} (store : Store) (record : AgentRecord) (work : AgentM α) :
    Except Fault α × Store :=
  let (result, agent) := work.run.run { record.agent with intentions := store.intentions }
  (result, store.settle record.id agent)

end Store

end AgentSpeak
