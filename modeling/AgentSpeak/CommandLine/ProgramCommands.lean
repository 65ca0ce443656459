import AgentSpeak.Agent.Cycle
import AgentSpeak.CommandLine.Session

namespace AgentSpeak.CommandLine

def exampleLines : List String :=
  [ "// Tower of Hanoi: three discs on two pins.",
    "",
    "disc(large, 3).",
    "disc(med, 2).",
    "disc(small, 1).",
    "",
    "on(large, 0, table).",
    "on(med, 0, large).",
    "on(small, 1, table).",
    "",
    "// Discs standing directly on the table, with the pin they stand on.",
    "top(Disc, Pin) :- on(Disc, Pin, Below) & not disc(Below, _).",
    "",
    "// Count the discs, then report the first one found on the table.",
    "!sort.",
    "",
    "+!sort : top(Disc, Pin)",
    "    <- .count(disc(_, _), N);",
    "       .print(\"sorting \", N, \" discs\");",
    "       .print(Disc).",
    "",
    "-!sort <- .print(\"nothing to sort\")." ]

def exampleProgram : String :=
  String.join (exampleLines.map (· ++ "\n"))

open Session

/-- The program of a file, after a message for each clause that was left out. An integer with too many
digits is refused, or else the command crashes. -/
def loadProgram (path : String) (lenient refusesFatal : Bool) : CommandM Program.Reading := do
  let text ← match ← readFile path with
    | .ok text => pure text
    | .error (.missing path) => refuse (FileProblem.missing path).message
    | .error problem => finish (.crash (.file problem))
  match Program.read text !lenient with
  | .error error =>
      if error.isFatal && !refusesFatal then finish (.crash (.fault (.unreadable error)))
      else refuse error.report
  | .ok reading =>
      reading.errors.forM fun error => writeMessage ("✗ skipped: " ++ error.report)
      return reading

def loadAgent (path : String) (name : Option String) (lenient : Bool) : CommandM Agent := do
  let reading ← loadProgram path lenient true
  match ← settings with
  | .error malformed => refuse malformed.message
  | .ok config =>
      let given := name.getD ""
      let chosen := if given.isEmpty then Path.stem path else given
      let agent := Agent.ofReading reading chosen config.toLimits .empty 0
      report agent.journal.log.reverse
      return agent

/-- Lets an agent work. What it prints and reports meanwhile is written even if it fails. -/
def perform {α : Type} (agent : Agent) (work : AgentM α) : CommandM (Except Fault α × Agent) := do
  let quiet := { agent with journal := ⟨[], [], []⟩ }
  let (result, after) := work.run.run quiet
  writeLines after.transcript
  report after.journal.log.reverse
  return (result, after)

/-- The lines that count a program's clauses. -/
def summaryLines (reading : Program.Reading) : List String :=
  [ "=== Summary ===",
    s!"Beliefs: {reading.program.beliefs.length}",
    s!"Rules: {reading.program.rules.length}",
    s!"Goals: {reading.program.goals.length}",
    s!"Plans: {reading.program.plans.length}" ] ++
  (if reading.errors.isEmpty then [] else [s!"Errors: {reading.errors.length}"])

/-- Reads a program and prints it back. -/
def parseCommand (file : String) (lenient : Bool) : CommandM Unit := do
  let reading ← loadProgram file lenient false
  report reading.log
  writeLines (["=== " ++ file ++ " ===", "", reading.program.render] ++ summaryLines reading)

def exampleCommand : CommandM Unit :=
  write (exampleProgram ++ "\n")

/-- Runs an agent with more goals than its program gives. -/
def runCommand (file : String) (goals : List String) (maxCycles : Option Int)
    (name : Option String) (lenient : Bool) : CommandM Unit := do
  let loaded ← loadAgent file name lenient
  let agent ← goals.foldlM (fun agent goal => do
    match Term.read goal with
    | .error error => refuse error.report
    | .ok term =>
        match ← perform agent (Agent.achieve term) with
        | (.error fault, _) => refuse fault.message
        | (.ok _, after) => return after) loaded
  match ← perform agent (Agent.run maxCycles) with
  | (.error fault, _) => finish (.crash (.fault fault))
  | (.ok handled, after) =>
      if !after.events.isEmpty then
        writeMessage s!"Stopped after {handled} events, {after.events.length} still pending"

/-- What an agent does for a question: it may work first. -/
def runAndQuery (text : String) (runFirst : Bool) : AgentM (List (List (Variable × Term))) := do
  if runFirst then
    let _ ← Agent.run none
  let formula ← Agent.ofExcept ((Formula.read text).mapError Fault.unreadable)
  Agent.query formula

def solutionLine (solution : List (Variable × Term)) : String :=
  if solution.isEmpty then "true."
  else ", ".intercalate (solution.map fun (v, value) => v.name ++ "=" ++ value.render)

/-- Writes an answer, if it has a text. -/
def writeSolution (solution : List (Variable × Term)) : CommandM Unit :=
  if solution.all fun (_, value) => value.isWritable then writeLines [solutionLine solution]
  else finish (.crash (.fault .unwritable))

/-- Answers a question from a program's beliefs. -/
def queryCommand (file text : String) (runFirst lenient : Bool) : CommandM Unit := do
  let agent ← loadAgent file none lenient
  match ← perform agent (runAndQuery text runFirst) with
  | (.error fault, _) =>
      if fault.failsIntention then refuse fault.message else finish (.crash (.fault fault))
  | (.ok solutions, _) =>
      if solutions.isEmpty then writeLines ["false."]
      else solutions.forM writeSolution

end AgentSpeak.CommandLine
