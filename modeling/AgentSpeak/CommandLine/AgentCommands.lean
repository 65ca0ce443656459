import AgentSpeak.CommandLine.Client
import AgentSpeak.CommandLine.Session
import AgentSpeak.Server.Json

namespace AgentSpeak.CommandLine

open Session

/-- Ends the command as failed, with the reason. -/
def complain {α : Type} (reason : String) : CommandM α := do
  writeLines ["✗ Error: " ++ reason]
  finish (.exit 1)

/-- The server's store. It is made for the first request. -/
def openStore : CommandM Store := do
  let session ← get
  match session.store with
  | some store => return store
  | none =>
      match ← settings with
      | .error malformed => complain malformed.message
      | .ok config => return .empty config.toLimits session.now

/-- Makes a request of the server; the result is the body of its answer. -/
def request (method path : String) (body : Option Json) : CommandM Json := do
  if !(← read).reachable then complain "Connection refused"
  if let some problem := Address.problem? path then complain problem
  let address := Address.ofPath path
  let store ← openStore
  let (result, after) := store.respond ⟨method, Address.requestPath address, body⟩
  modify fun session => { session with store := some after }
  match result with
  | .error fault => complain fault.message
  | .ok response =>
      if response.status = 200 then return response.body.getD .null
      else complain (failureText address response)

def writeAgentOutput (answer : Json) : CommandM Unit :=
  writeLines ((answer.textsAt "output").map ("  | " ++ ·))

def createCommand (file : String) (name : Option String) (lenient : Bool) : CommandM Unit := do
  let source ← match ← readFile file with
    | .ok source => pure source
    | .error problem => complain problem.message
  let given := name.getD ""
  let chosen := if given.isEmpty then Path.stem file else given
  let answer ← request "POST" agentsPath <| some <| .object
    [("name", .string chosen), ("source", .string source), ("lenient", .bool lenient)]
  writeLines
    [ "✓ Created agent: " ++ answer.textAt "id",
      "  name: " ++ answer.textAt "name",
      "  " ++ answer.numberAt "belief_count" ++ " beliefs, " ++ answer.numberAt "plan_count" ++
        " plans" ]
  writeLines ((answer.textsAt "errors").map ("  ✗ skipped: " ++ ·))
  writeAgentOutput answer

/-- The line for an agent in a list. -/
def agentLine (answer : Json) : String :=
  let name := answer.textAt "name"
  answer.textAt "id" ++ "  " ++ name.pushn ' ' (20 - name.length) ++ " " ++
    answer.numberAt "belief_count" ++ " beliefs, " ++ answer.numberAt "plan_count" ++ " plans"

def listCommand : CommandM Unit := do
  let answer ← request "GET" agentsPath none
  let agents := answer.itemsAt "agents"
  if agents.isEmpty then writeLines ["No agents."] else writeLines (agents.map agentLine)

def inspectCommand (id : String) : CommandM Unit := do
  let answer ← request "GET" (agentPath id) none
  writeLines [answer.render ""]

/-- Tells an agent of the server something. -/
def tellCommand (id : String) (kind : EventKind) (literal : String) (maxCycles : Option Int) :
    CommandM Unit := do
  let limit := match maxCycles with
    | some cycles => Json.number (.int cycles)
    | none => .null
  let answer ← request "POST" (agentPath id ++ "/events") <| some <| .object
    [("kind", .string (kind.word)), ("literal", .string literal), ("max_cycles", limit)]
  writeLines ["✓ Handled " ++ answer.numberAt "handled" ++ " events (" ++
    answer.numberAt "pending" ++ " pending)"]
  writeAgentOutput answer

/-- The line for an answer to a question. -/
def answerLine : Json → String
  | .object [] => "true."
  | .object fields => ", ".intercalate (fields.map fun (name, value) =>
      name ++ "=" ++ (value.text?).getD "")
  | _ => ""

/-- Asks an agent of the server a question. -/
def askCommand (id query : String) : CommandM Unit := do
  let answer ← request "POST" (agentPath id ++ "/query") (some (.object [("query", .string query)]))
  let solutions := answer.itemsAt "solutions"
  if solutions.isEmpty then writeLines ["false."] else writeLines (solutions.map answerLine)

def deleteCommand (id : String) : CommandM Unit := do
  let answer ← request "DELETE" (agentPath id) none
  writeLines ["✓ Deleted: " ++ answer.textAt "deleted"]

end AgentSpeak.CommandLine
