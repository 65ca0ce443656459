import AgentSpeak.Agent.Execution
import AgentSpeak.Program.Parser

namespace AgentSpeak.Agent

def begin (frame : Frame) : AgentM Intention := do
  modify fun agent => { agent with intentions := agent.intentions + 1 }
  return { id := (← get).intentions, frames := [frame], steps := 0 }

/-- Reports that no plan applies to an event. For a belief that is nothing special. -/
def reportUnhandled (trigger : Trigger) : AgentM Unit := do
  written trigger.isWritable
  if trigger.subject = .belief then reportNamed .debug ("no plan for " ++ trigger.render)
  else reportNamed .warning ("no applicable plan for " ++ trigger.render)

/-- Handles an event; true if a plan for it ran to its end. -/
def handle (trigger : Trigger) : AgentM Bool := do
  match ← selectPlan trigger none with
  | none =>
      reportUnhandled trigger
      return false
  | some frame => runIntention (← begin frame)

/-- Handles at most `limit` events; the result is how many were handled, with those before. -/
def runEvents : Nat → Nat → AgentM Nat
  | 0, handled => return handled
  | limit + 1, handled => do
      match (← get).events with
      | [] => return handled
      | trigger :: rest =>
          modify fun agent => { agent with events := rest }
          let _ ← handle trigger
          runEvents limit (handled + 1)

/-- More events than any run handles. -/
def noLimit : Nat :=
  18446744073709551616

/-- Handles queued events until none is left, or as many as allowed. -/
def run (maxCycles : Option Int) : AgentM Nat := do
  let limit := match maxCycles with
    | some cycles => cycles.toNat
    | none => noLimit
  let handled ← runEvents limit 0
  reportNamed .info s!"handled {handled} events, {(← get).events.length} pending"
  return handled

/-- Posts the initial goals of a program and adds its beliefs and rules. -/
def load (program : Program) : AgentM Unit := do
  modify fun agent =>
    { agent with beliefs := program.rules.foldl BeliefBase.addRule agent.beliefs }
  program.beliefs.forM fun fact => do
    let _ ← addBelief fact
  program.goals.forM achieve

/-- An agent that has not begun to work; `intentions` counts those of other agents. -/
def idle (name : String) (limits : Limits) (plans : List Plan) (actions : ActionTable)
    (intentions : Nat) : Agent :=
  { name, limits, plans, actions, beliefs := .empty, events := [], renamings := 0, intentions,
    journal := ⟨[], [], []⟩ }

/-- The agent of a program, which has reported how the program was read. Beliefs of a program that
was read are ground literals, and their numbers have texts, so all of them are added. -/
def ofReading (reading : Program.Reading) (name : String) (limits : Limits) (actions : ActionTable)
    (intentions : Nat) : Agent :=
  let agent := idle name limits reading.program.plans actions intentions
  let reported := { agent with journal := { agent.journal with log := reading.log.reverse } }
  ((load reading.program).run.run reported).2

/-- All answers to a formula, as values of its named variables. -/
def query (formula : Formula) : AgentM (List (List (Variable × Term))) := do
  let found ← answers formula .empty
  return found.map fun θ => θ.restrict formula.namedVariables

end AgentSpeak.Agent
