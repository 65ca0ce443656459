import AgentSpeak.Config
import AgentSpeak.Server.Payload
import AgentSpeak.Server.Store
import AgentSpeak.Text.Percent

/-!
Answering requests about the agents of a store.

A request that names no agent, or holds something that cannot be read, is refused with a status of
its own. A fault of numbers is not refused: it ends the request without an answer, and so does an
integer with too many digits in what a question finds, or in an agent that shall be shown.
-/

namespace AgentSpeak

/-- A request: its method, the path it names, and its body. -/
structure Request where
  method : String
  path : String
  body : Option Json

/-- An answer: its status, its body, and where to ask instead. -/
structure Response where
  status : Nat
  body : Option Json
  location : Option String

namespace Response

def ok (fields : List (String × Json)) : Response :=
  ⟨200, some (.object fields), none⟩

def refusal (status : Nat) (detail : String) : Response :=
  ⟨status, some (.object [("detail", .string detail)]), none⟩

/-- The answer to a body that has not the right fields. -/
def unprocessable : Response :=
  ⟨422, none, none⟩

/-- The answer about an agent that does not exist. -/
def unknownAgent : Response :=
  refusal 404 "Agent not found"

end Response

inductive Route where
  | root
  | agents
  | agent (id : String)
  | events (id : String)
  | query (id : String)

namespace Route

def ofPath? (path : String) : Option Route :=
  match Text.cut '/' path with
  | ["", ""] => some root
  | ["", "api", "agents"] => some agents
  | ["", "api", "agents", id] => if id.isEmpty then none else some (agent id)
  | ["", "api", "agents", id, "events"] => if id.isEmpty then none else some (events id)
  | ["", "api", "agents", id, "query"] => if id.isEmpty then none else some (query id)
  | _ => none

/-- The path of an address: what stands before a question, with its percent signs read. -/
def pathOf (address : String) : String :=
  Text.percentDecode (String.ofList (address.toList.takeWhile (· != '?')))

/-- A path without slashes at its end. -/
def withoutFinalSlashes (path : String) : String :=
  String.ofList (path.toList.reverse.dropWhile (· == '/')).reverse

end Route

namespace Store

/-- What the program calls itself, and its version. -/
def identity : List (String × Json) :=
  [("name", .string "pheres API"), ("version", .string "0.1.0")]

/-- Answers with a list of all agents. -/
def respondList (store : Store) : Response :=
  .ok [("agents", .array (store.records.map fun record => .object record.summary))]

/-- Creates an agent and lets it run unless it shall not. -/
def respondCreate (store : Store) (request : CreateRequest) : Except Fault Response × Store :=
  match store.create request.name request.source request.lenient with
  | .error error =>
      (if error.isFatal then .error (.unreadable error) else .ok (.refusal 400 error.report), store)
  | .ok (record, created) =>
      if request.run then
        let (result, after) := created.perform record (Agent.work none)
        (result.map fun work => .ok <|
          ((after.find? record.id).getD record).summary ++ [("errors", record.errorTexts)] ++ work,
          after)
      else
        let work := Agent.workFields 0 record.agent.events.length []
        (.ok (.ok (record.summary ++ [("errors", record.errorTexts)] ++ work)), created)

/-- What an agent does when it is told something. -/
def tell (request : EventRequest) : AgentM Unit := do
  let literal ← Agent.ofExcept ((Term.read request.literal).mapError Fault.unreadable)
  match request.kind with
  | .achieve => Agent.achieve literal
  | .add => do
      let _ ← Agent.addBelief literal
  | .remove => do
      let _ ← Agent.removeBeliefs literal

/-- Tells an agent something and lets it run. -/
def respondEvent (store : Store) (record : AgentRecord) (request : EventRequest) :
    Except Fault Response × Store :=
  match store.perform record (tell request) with
  | (.error fault, after) =>
      if fault.failsIntention then (.ok (.refusal 400 fault.message), after)
      else (.error fault, after)
  | (.ok _, told) =>
      let (result, after) := told.perform ((told.find? record.id).getD record)
        (Agent.work request.maxCycles)
      (result.map fun work => .ok (("id", .string record.id) :: work), after)

/-- Describes an agent in full. -/
def respondFields (store : Store) (record : AgentRecord) : Except Fault Response × Store :=
  (if record.agent.isWritable then .ok (.ok record.fields) else .error .unwritable, store)

/-- Answers a question from an agent's beliefs. -/
def respondQuery (store : Store) (record : AgentRecord) (text : String) :
    Except Fault Response × Store :=
  let ask : AgentM (List (List (Variable × Term))) := do
    Agent.query (← Agent.ofExcept ((Formula.read text).mapError Fault.unreadable))
  let solution := fun bindings : List (Variable × Term) =>
    Json.object (bindings.map fun (v, value) => (v.name, .string value.render))
  match store.perform record ask with
  | (.error fault, after) =>
      if fault.isProgramFault then (.ok (.refusal 400 fault.message), after)
      else (.error fault, after)
  | (.ok solutions, after) =>
      let answer := Response.ok [("query", .string text), ("solutions", .array (solutions.map solution))]
      let writable := solutions.all fun bindings => bindings.all fun (_, value) => value.isWritable
      (if writable then .ok answer else .error .unwritable, after)

/-- Lets a request about one agent go on if the agent exists. -/
def withAgent (store : Store) (id : String)
    (respond : AgentRecord → Except Fault Response × Store) : Except Fault Response × Store :=
  match store.find? id with
  | none => (.ok .unknownAgent, store)
  | some record => respond record

/-- Lets a request with a body go on if the body has the right fields. -/
def withBody {α : Type} (store : Store) (body : Option Json) (read : Json → Option α)
    (respond : α → Except Fault Response × Store) : Except Fault Response × Store :=
  match body.bind read with
  | none => (.ok .unprocessable, store)
  | some request => respond request

def respondAt (store : Store) (route : Route) (method : String) (body : Option Json) :
    Except Fault Response × Store :=
  match route, method with
  | .root, "GET" => (.ok (.ok identity), store)
  | .agents, "GET" => (.ok store.respondList, store)
  | .agents, "POST" => store.withBody body CreateRequest.ofJson? store.respondCreate
  | .agent id, "GET" =>
      store.withAgent id store.respondFields
  | .agent id, "DELETE" =>
      store.withAgent id fun _ => (.ok (.ok [("deleted", .string id)]), store.delete id)
  | .events id, "POST" =>
      store.withBody body EventRequest.ofJson? fun request =>
        store.withAgent id fun record => store.respondEvent record request
  | .query id, "POST" =>
      store.withBody body queryOfJson? fun text =>
        store.withAgent id fun record => store.respondQuery record text
  | _, _ => (.ok (.refusal 405 "Method Not Allowed"), store)

/-- Answers a request. A path with slashes too many at its end is sent to the path without them. -/
def respond (store : Store) (request : Request) : Except Fault Response × Store :=
  let path := Route.pathOf request.path
  match Route.ofPath? path with
  | some route => store.respondAt route request.method.toUpper request.body
  | none =>
      let shorter := Route.withoutFinalSlashes path
      if shorter ≠ path ∧ (Route.ofPath? shorter).isSome then
        (.ok ⟨307, none, some shorter⟩, store)
      else (.ok (.refusal 404 "Not Found"), store)

/-- Answers a request and follows where the answer sends it. -/
def respondFollowing (store : Store) (request : Request) : Except Fault Response × Store :=
  match store.respond request with
  | (.ok ⟨_, _, some location⟩, after) => after.respond { request with path := location }
  | answer => answer

end Store

/-- The origin that a server allows for a request from `origin`. A star allows every origin. -/
def Config.allowedOrigin? (config : Config) (origin : String) : Option String :=
  if config.corsOrigins.contains "*" then some "*"
  else if config.corsOrigins.contains origin then some origin
  else none

end AgentSpeak
