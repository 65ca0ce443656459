import AgentSpeak.Proofs.Parallel.Execution
import AgentSpeak.Proofs.Server.Store

/-!
Agents of one server do not affect each other. Two servers get requests of any kind, among them the
creation of an agent and, from then on, the same requests to it. Whatever other requests come in
between on either server, the agent gives the same answers on both, but for its id and for times.
-/

namespace AgentSpeak

namespace Agent

theorem indifferent_load (program : Program) : Indifferent (load program) := by
  refine Parallel.onward (parallel_modify fun _ begun log => ⟨begun, log, rfl⟩) fun _ => ?_
  refine (indifferent_forM fun fact => ?_).bind fun _ => indifferent_forM indifferent_achieve
  exact (indifferent_addBelief fact).bind fun _ => indifferent_pure _

theorem indifferent_work (maxCycles : Option Int) : Indifferent (work maxCycles) :=
  .get fun _ _ _ => (indifferent_run maxCycles).bind fun _ => .get fun _ _ _ => parallel_pure rfl

/-- The agent of a program does not depend on what other agents have begun, but for its reports. -/
theorem ofReading_beside (reading : Program.Reading) (name : String) (limits : Limits)
    (actions : ActionTable) (intentions intentions' : Nat) : ∃ begun log,
      ofReading reading name limits actions intentions' =
        (ofReading reading name limits actions intentions).beside begun log := by
  let blank := idle name limits reading.program.plans actions intentions
  let started := { blank with journal := { blank.journal with log := reading.log.reverse } }
  obtain ⟨begun, log, ran⟩ :=
    (indifferent_load reading.program).run started intentions' reading.log.reverse
  exact ⟨begun, log, congrArg Prod.snd ran⟩

end Agent

/-- The route to the same resource of another agent. -/
def Route.to (id : String) : Route → Route
  | .root => .root
  | .agents => .agents
  | .agent _ => .agent id
  | .events _ => .events id
  | .query _ => .query id

/-- The same request, but to another agent. -/
structure Request.Readdressed (id : String) (request other : Request) : Prop where
  route : other.route? = request.route?.map (Route.to id)
  method : other.method = request.method
  body : other.body = request.body

/-- A request that asks for a new agent. -/
structure Request.Creates (request : Request) : Prop where
  route : request.route? = some .agents
  method : request.method.toUpper = "POST"

/-- A request and the time at which it comes in. -/
structure Arrival where
  time : String
  request : Request

/-- A JSON object without the values that tell ids and times. -/
def Json.anonymous : Json → Json
  | .object fields => .object <| fields.map fun (name, value) =>
      (name, if name ∈ ["id", "created_at", "deleted"] then .null else value)
  | json => json

/-- An answer without ids and times. -/
def Response.anonymous (response : Response) : Response :=
  { response with body := response.body.map Json.anonymous }

/-- An answer without ids and times, or the fault by which a request ends without one. -/
def anonymous (answer : Except Fault Response) : Except Fault Response :=
  answer.map Response.anonymous

/-- Two records of agents alike, with ids and times of their own. -/
structure AgentRecord.Counterpart (record other : AgentRecord) : Prop where
  agent : ∃ begun log, other.agent = record.agent.beside begun log
  errors : other.errors = record.errors

namespace Store

/-- Answers a request at the time at which it comes in. -/
def receive (store : Store) (arrival : Arrival) : Except Fault Response × Store :=
  { store with now := arrival.time }.respond arrival.request

/-- The store after requests. -/
def afterAll (store : Store) (arrivals : List Arrival) : Store :=
  arrivals.foldl (fun store arrival => (store.receive arrival).2) store

/-- The answers to those of some requests that are addressed to an id. -/
def answersTo (id : String) : Store → List Arrival → List (Except Fault Response)
  | _, [] => []
  | store, arrival :: rest =>
      if arrival.request.id? = some id then
        (store.receive arrival).1 :: answersTo id (store.receive arrival).2 rest
      else answersTo id (store.receive arrival).2 rest

/-- What two stores have under two ids is alike. -/
def Linked (id id' : String) (store store' : Store) : Prop :=
  Option.Rel AgentRecord.Counterpart (store.find? id) (store'.find? id')

/-- Two stores have answered alike, and what they have under two ids is still alike. -/
structure SameAnswer (id id' : String) (one other : Except Fault Response × Store) : Prop where
  answer : anonymous other.1 = anonymous one.1
  linked : Linked id id' one.2 other.2

variable {store store' : Store} {id id' : String} {record record' : AgentRecord}

theorem indifferent_tell (event : EventRequest) : Agent.Indifferent (tell event) := by
  refine (Agent.indifferent_ofExcept _).bind fun literal => ?_
  split
  next => exact Agent.indifferent_achieve literal
  next => exact (Agent.indifferent_addBelief literal).bind fun _ => Agent.indifferent_pure _
  next => exact (Agent.indifferent_removeBeliefs literal).bind fun _ => Agent.indifferent_pure _

theorem indifferent_ask (text : String) : Agent.Indifferent (ask text) :=
  (Agent.indifferent_ofExcept _).bind fun formula => Agent.indifferent_query formula

/-- Two agents alike do the same work with the same result, and stay alike. -/
theorem perform_counterpart {α : Type} {work : AgentM α} (indifferent : Agent.Indifferent work)
    (found : store.find? id = some record) (found' : store'.find? id' = some record')
    (alike : record.Counterpart record') :
    ∃ outcome after after' later later', store.perform record work = (outcome, after) ∧
      store'.perform record' work = (outcome, after') ∧ after.find? id = some later ∧
      after'.find? id' = some later' ∧ later.Counterpart later' := by
  obtain ⟨begun, log, same⟩ := alike.agent
  have lent : record'.lend store' = (record.lend store).beside store'.intentions log := by
    rw [AgentRecord.lend, same]
    rfl
  obtain ⟨begun', log', ran⟩ := indifferent.run (record.lend store) store'.intentions log
  rw [perform_eq, perform_eq, lent, Agent.leaves, Agent.leaves, ran, id_of_find? found,
    id_of_find? found']
  refine ⟨_, _, _, _, _, rfl, rfl, find?_settle_self _ found, find?_settle_self _ found', ?_,
    alike.errors⟩
  exact ⟨begun', [], rfl⟩

theorem SameAnswer.same (linked : Linked id id' store store') (answer : Except Fault Response) :
    SameAnswer id id' (answer, store) (answer, store') :=
  ⟨rfl, linked⟩

theorem SameAnswer.withBody {α : Type} {read : Json → Option α}
    {respond respond' : α → Except Fault Response × Store} (body : Option Json)
    (linked : Linked id id' store store')
    (each : ∀ value, SameAnswer id id' (respond value) (respond' value)) :
    SameAnswer id id' (store.withBody body read respond) (store'.withBody body read respond') := by
  unfold Store.withBody
  split
  next => exact .same linked _
  next => exact each _

theorem SameAnswer.withAgent {respond respond' : AgentRecord → Except Fault Response × Store}
    (linked : Linked id id' store store')
    (each : ∀ record record', store.find? id = some record → store'.find? id' = some record' →
      record.Counterpart record' → SameAnswer id id' (respond record) (respond' record')) :
    SameAnswer id id' (store.withAgent id respond) (store'.withAgent id' respond') := by
  unfold Store.withAgent
  unfold Linked at linked
  split
  next missing =>
    rw [missing] at linked
    split
    next missing' => exact .same (by rw [Linked, missing, missing']; exact .none) _
    next found' =>
      rw [found'] at linked
      cases linked
  next found =>
    rw [found] at linked
    split
    next missing' =>
      rw [missing'] at linked
      cases linked
    next found' =>
      rw [found'] at linked
      cases linked with
      | some alike => exact each _ _ found found' alike

theorem Linked.of_find? (found : store.find? id = some record)
    (found' : store'.find? id' = some record') (alike : record.Counterpart record') :
    Linked id id' store store' := by
  rw [Linked, found, found']
  exact .some alike

theorem errorTexts_counterpart (alike : record.Counterpart record') :
    record'.errorTexts = record.errorTexts := by
  rw [AgentRecord.errorTexts, AgentRecord.errorTexts, alike.errors]

/-- What an agent shows of itself is the same, but for its id and the time of its creation. -/
theorem sameAnswer_respondFields (alike : record.Counterpart record')
    (linked : Linked id id' store store') :
    SameAnswer id id' (store.respondFields record) (store'.respondFields record') := by
  refine ⟨?_, linked⟩
  obtain ⟨begun, log, same⟩ := alike.agent
  have writable : record'.agent.isWritable = record.agent.isWritable := by
    rw [same]
    rfl
  dsimp only [respondFields]
  rw [writable]
  split
  next =>
    rw [AgentRecord.fields, AgentRecord.fields, errorTexts_counterpart alike, same]
    rfl
  next => rfl

theorem sameAnswer_respondEvent (event : EventRequest) (found : store.find? id = some record)
    (found' : store'.find? id' = some record') (alike : record.Counterpart record') :
    SameAnswer id id' (store.respondEvent record event) (store'.respondEvent record' event) := by
  obtain ⟨outcome, after, after', later, later', ran, ran', told, told', stays⟩ :=
    perform_counterpart (indifferent_tell event) found found' alike
  unfold respondEvent
  rw [ran, ran']
  cases outcome with
  | error fault =>
    have linked : Linked id id' after after' := .of_find? told told' stays
    dsimp only
    split <;> exact .same linked _
  | ok done =>
    obtain ⟨outcome, last, last', _, _, ran, ran', worked, worked', stays⟩ :=
      perform_counterpart (Agent.indifferent_work event.maxCycles) told told' stays
    dsimp only
    rw [id_of_find? found, id_of_find? found', told, told', Option.getD_some, Option.getD_some,
      ran, ran']
    refine ⟨?_, .of_find? worked worked' stays⟩
    dsimp only
    cases outcome <;> rfl

theorem sameAnswer_respondQuery (text : String) (found : store.find? id = some record)
    (found' : store'.find? id' = some record') (alike : record.Counterpart record') :
    SameAnswer id id' (store.respondQuery record text) (store'.respondQuery record' text) := by
  obtain ⟨outcome, after, after', later, later', ran, ran', asked, asked', stays⟩ :=
    perform_counterpart (indifferent_ask text) found found' alike
  have linked : Linked id id' after after' := .of_find? asked asked' stays
  rw [respondQuery_eq, respondQuery_eq, ran, ran']
  cases outcome with
  | error fault =>
    dsimp only
    split <;> exact .same linked _
  | ok solutions => exact .same linked _

theorem sameAnswer_respondAt {route : Route} (named : route.id? = some id)
    (linked : Linked id id' store store') (method : String) (body : Option Json) :
    SameAnswer id id' (store.respondAt route method body)
      (store'.respondAt (route.to id') method body) := by
  cases route with
  | root => cases named
  | agents => cases named
  | agent id =>
    cases named
    rw [Route.to, respondAt_agent, respondAt_agent]
    split
    next =>
      refine .withAgent linked fun record record' found found' alike => ?_
      exact sameAnswer_respondFields alike linked
    next =>
      split
      next =>
        refine .withAgent linked fun _ _ _ _ _ => ⟨rfl, ?_⟩
        rw [Linked, find?_delete_self, find?_delete_self]
        exact .none
      next => exact .same linked _
  | events id =>
    cases named
    rw [Route.to, respondAt_events, respondAt_events]
    split
    next =>
      refine .withBody body linked fun event => .withAgent linked fun _ _ found found' alike => ?_
      exact sameAnswer_respondEvent event found found' alike
    next => exact .same linked _
  | query id =>
    cases named
    rw [Route.to, respondAt_query, respondAt_query]
    split
    next =>
      refine .withBody body linked fun text => .withAgent linked fun _ _ found found' alike => ?_
      exact sameAnswer_respondQuery text found found' alike
    next => exact .same linked _

/-- A request to an agent is answered alike by its counterpart. -/
theorem sameAnswer_respond {request other : Request} (named : request.id? = some id)
    (same : request.Readdressed id' other) (linked : Linked id id' store store') :
    SameAnswer id id' (store.respond request) (store'.respond other) := by
  obtain ⟨route, taken, named⟩ := Option.bind_eq_some_iff.mp named
  have taken' := same.route
  rw [taken, Option.map_some] at taken'
  rw [respond_of_route taken, respond_of_route taken', same.method, same.body]
  exact sameAnswer_respondAt named linked _ _

/-- Two stores with the same settings make agents alike of the same program. -/
theorem create_counterpart (limits : store'.limits = store.limits) (name source : String)
    (lenient : Bool) :
    (∃ error, store.create name source lenient = .error error ∧
      store'.create name source lenient = .error error) ∨
    ∃ record record' after after', store.create name source lenient = .ok (record, after) ∧
      store'.create name source lenient = .ok (record', after') ∧ record.Counterpart record' := by
  rw [create, create, limits]
  cases Program.read source !lenient with
  | error error => exact .inl ⟨error, rfl, rfl⟩
  | ok reading =>
    refine .inr ⟨_, _, _, _, rfl, rfl, ?_, rfl⟩
    obtain ⟨begun, log, same⟩ := Agent.ofReading_beside reading name store.limits .empty
      store.intentions store'.intentions
    exact ⟨begun, [], by rw [same]; rfl⟩

theorem anonymous_summary (alike : record.Counterpart record') (fields : List (String × Json)) :
    anonymous (.ok (.ok (record'.summary ++ fields))) =
      anonymous (.ok (.ok (record.summary ++ fields))) := by
  obtain ⟨begun, log, same⟩ := alike.agent
  rw [AgentRecord.summary, AgentRecord.summary, same]
  rfl

theorem sameAnswer_respondCreate (regular : store.IsRegular) (regular' : store'.IsRegular)
    (limits : store'.limits = store.limits) (request : CreateRequest) :
    SameAnswer (idOf (store.created + 1)) (idOf (store'.created + 1))
      (store.respondCreate request) (store'.respondCreate request) := by
  rw [respondCreate, respondCreate]
  obtain ⟨error, failed, failed'⟩ | ⟨record, record', after, after', made, made', alike⟩ :=
    create_counterpart limits request.name request.source request.lenient
  · rw [failed, failed']
    refine .same ?_ _
    rw [Linked, regular.find?_next, regular'.find?_next]
    exact .none
  · have found := find?_create regular.gave made
    have found' := find?_create regular'.gave made'
    rw [← (create_eq made).1, ← (create_eq made').1, made, made']
    dsimp only
    split
    next =>
      obtain ⟨outcome, last, last', later, later', ran, ran', worked, worked', stays⟩ :=
        perform_counterpart (Agent.indifferent_work none) found found' alike
      rw [ran, ran']
      refine ⟨?_, .of_find? worked worked' stays⟩
      dsimp only
      rw [worked, worked', Option.getD_some, Option.getD_some, errorTexts_counterpart alike]
      cases outcome with
      | error fault => rfl
      | ok work =>
        rw [Except.map, Except.map, List.append_assoc, List.append_assoc]
        exact anonymous_summary stays _
    next =>
      refine ⟨?_, .of_find? found found' alike⟩
      obtain ⟨begun, log, same⟩ := alike.agent
      have waiting : record'.agent.events = record.agent.events := by
        rw [same]
        rfl
      dsimp only
      rw [errorTexts_counterpart alike, waiting, List.append_assoc, List.append_assoc]
      exact anonymous_summary alike _

variable {arrivals : List Arrival}

theorem receive_others (arrival : Arrival) (gave : store.Gave id)
    (elsewhere : arrival.request.id? ≠ some id) :
    (store.receive arrival).2.find? id = store.find? id := by
  have stamped : Store.Gave { store with now := arrival.time } id := gave
  exact find?_respond stamped elsewhere

theorem Gave.receive (gave : store.Gave id) (arrival : Arrival) :
    (store.receive arrival).2.Gave id := by
  have stamped : Store.Gave { store with now := arrival.time } id := gave
  exact stamped.respond arrival.request

theorem afterAll_cons (store : Store) (arrival : Arrival) (rest : List Arrival) :
    store.afterAll (arrival :: rest) = (store.receive arrival).2.afterAll rest :=
  List.foldl_cons ..

/-- Requests that are not addressed to an agent leave it as it was, and so it answers later ones. -/
theorem answersTo_append (gave : store.Gave id) {others : List Arrival}
    (elsewhere : ∀ arrival ∈ others, arrival.request.id? ≠ some id) (rest : List Arrival) :
    answersTo id store (others ++ rest) = answersTo id (store.afterAll others) rest ∧
      (store.afterAll others).find? id = store.find? id ∧ (store.afterAll others).Gave id := by
  induction others generalizing store with
  | nil => exact ⟨rfl, rfl, gave⟩
  | cons arrival others ih =>
    obtain ⟨here, elsewhere⟩ := List.forall_mem_cons.mp elsewhere
    obtain ⟨answers, found, gave'⟩ := ih (gave.receive arrival) elsewhere
    rw [List.cons_append, answersTo, if_neg here, afterAll_cons]
    exact ⟨answers, found.trans (receive_others arrival gave here), gave'⟩

theorem sameAnswer_receive {arrival arrival' : Arrival}
    (named : arrival.request.id? = some id)
    (same : arrival.request.Readdressed id' arrival'.request)
    (linked : Linked id id' store store') :
    SameAnswer id id' (store.receive arrival) (store'.receive arrival') := by
  have stamped : Linked id id' { store with now := arrival.time }
    { store' with now := arrival'.time } := linked
  exact sameAnswer_respond named same stamped

/-- Agents alike answer the requests that both are sent alike, whatever else is requested. -/
theorem answersTo_linked {later later' : List Arrival} (gave : store.Gave id)
    (gave' : store'.Gave id') (linked : Linked id id' store store')
    (aligned : List.Forall₂ (fun one other => one.request.Readdressed id' other.request)
      (later.filter (·.request.id? = some id)) (later'.filter (·.request.id? = some id'))) :
    (answersTo id' store' later').map anonymous = (answersTo id store later).map anonymous := by
  induction later generalizing store store' later' with
  | nil =>
    have none := List.filter_eq_nil_iff.mp (List.forall₂_nil_left_iff.mp aligned)
    have passed :=
      answersTo_append gave' (fun arrival member => by simpa using none arrival member) []
    rw [List.append_nil] at passed
    rw [passed.1]
    rfl
  | cons arrival rest ih =>
    by_cases named : arrival.request.id? = some id
    · rw [List.filter_cons_of_pos (by simpa using named)] at aligned
      obtain ⟨arrival', tail, same, aligned, split⟩ := List.forall₂_cons_left_iff.mp aligned
      obtain ⟨others, rest', rfl, elsewhere, named', rfl⟩ := List.filter_eq_cons_iff.mp split
      obtain ⟨answers, found, gave'⟩ :=
        answersTo_append gave' (fun other member => by simpa using elsewhere other member)
          (arrival' :: rest')
      have linked : Linked id id' store (store'.afterAll others) := by
        rwa [Linked, found]
      have served := sameAnswer_receive named same linked
      rw [answers, answersTo, answersTo, if_pos named, if_pos (by simpa using named'),
        List.map_cons, List.map_cons, served.answer,
        ih (gave.receive arrival) (gave'.receive arrival') served.linked aligned]
    · rw [List.filter_cons_of_neg (by simpa using named)] at aligned
      rw [answersTo, if_neg named]
      refine ih (gave.receive arrival) gave' ?_ aligned
      rwa [Linked, receive_others arrival gave named]

theorem respond_creation {request : Request} (creates : request.Creates) :
    store.respond request =
      store.withBody request.body CreateRequest.ofJson? store.respondCreate := by
  rw [respond_of_route creates.route, creates.method]
  rfl

theorem sameAnswer_creation (regular : store.IsRegular) (regular' : store'.IsRegular)
    (limits : store'.limits = store.limits) {creation creation' : Arrival}
    (creates : creation.request.Creates) (creates' : creation'.request.Creates)
    (body : creation'.request.body = creation.request.body) :
    SameAnswer (idOf (store.created + 1)) (idOf (store'.created + 1))
      (store.receive creation) (store'.receive creation') := by
  let stamped : Store := { store with now := creation.time }
  let stamped' : Store := { store' with now := creation'.time }
  have stays : stamped.IsRegular := ⟨regular.distinct, regular.gave⟩
  have stays' : stamped'.IsRegular := ⟨regular'.distinct, regular'.gave⟩
  have linked : Linked (idOf (stamped.created + 1)) (idOf (stamped'.created + 1))
      stamped stamped' := by
    rw [Linked, stays.find?_next, stays'.find?_next]
    exact .none
  rw [receive, receive, respond_creation creates, respond_creation creates', body]
  exact .withBody _ linked fun request => sameAnswer_respondCreate stays stays' limits request

theorem IsRegular.receive (regular : store.IsRegular) (arrival : Arrival) :
    (store.receive arrival).2.IsRegular := by
  have stamped : IsRegular { store with now := arrival.time } := ⟨regular.distinct, regular.gave⟩
  exact stamped.respond arrival.request

theorem IsRegular.afterAll (regular : store.IsRegular) (arrivals : List Arrival) :
    (store.afterAll arrivals).IsRegular := by
  induction arrivals generalizing store with
  | nil => exact regular
  | cons arrival rest ih =>
    rw [afterAll_cons]
    exact ih (regular.receive arrival)

theorem limits_afterAll (store : Store) (arrivals : List Arrival) :
    (store.afterAll arrivals).limits = store.limits := by
  induction arrivals generalizing store with
  | nil => rfl
  | cons arrival rest ih =>
    have kept := (changes_respond { store with now := arrival.time } arrival.request).limits_eq
    rw [afterAll_cons, ih, receive]
    exact kept

/-- On two servers with the same settings an agent is created, whatever was requested before. The
creation is answered alike on both; and if it succeeds, so are all later requests to the agent, as
long as these are the same on both, whatever else is requested from either server in between, from
other agents or for new ones. In particular, the other requests may be missing on one server. -/
theorem isolated (limits : Limits) (now now' : String) (before before' : List Arrival)
    {creation creation' : Arrival} (creates : creation.request.Creates)
    (creates' : creation'.request.Creates)
    (body : creation'.request.body = creation.request.body) :
    let store := (empty limits now).afterAll before
    let store' := (empty limits now').afterAll before'
    let id := idOf (store.created + 1)
    let id' := idOf (store'.created + 1)
    anonymous (store'.receive creation').1 = anonymous (store.receive creation).1 ∧
      ∀ later later' : List Arrival, ((store.receive creation).2.find? id).isSome →
        List.Forall₂ (fun one other => one.request.Readdressed id' other.request)
          (later.filter (·.request.id? = some id)) (later'.filter (·.request.id? = some id')) →
        (answersTo id' (store'.receive creation').2 later').map anonymous =
          (answersTo id (store.receive creation).2 later).map anonymous := by
  intro store store' id id'
  have regular : store.IsRegular := (isRegular_empty limits now).afterAll before
  have regular' : store'.IsRegular := (isRegular_empty limits now').afterAll before'
  have same : store'.limits = store.limits :=
    (limits_afterAll _ before').trans (limits_afterAll (empty limits now) before).symm
  obtain ⟨answered, linked⟩ := sameAnswer_creation regular regular' same creates creates' body
  refine ⟨answered, fun later later' created aligned => ?_⟩
  obtain ⟨record, found⟩ := Option.isSome_iff_exists.mp created
  have gave := (regular.receive creation).gave_of_find? found
  rw [Linked, found] at linked
  cases found' : (store'.receive creation').2.find? id' with
  | none =>
    rw [found'] at linked
    cases linked
  | some record' =>
    have gave' := (regular'.receive creation').gave_of_find? found'
    refine answersTo_linked gave gave' ?_ aligned
    rw [Linked, found]
    exact linked

/-- An agent is asked for its beliefs on two servers. On one of them another agent was created
before it, and is told something in between. -/
theorem isolated_twoAgents :
    let creating (name : String) : Arrival := ⟨"noon", "POST", "/api/agents",
      some (.object [("name", .string name), ("source", .string "f(1)."), ("run", .bool false)])⟩
    let asking (path : String) : Arrival :=
      ⟨"later", "POST", path, some (.object [("query", .string "f(X)")])⟩
    let telling : Arrival := ⟨"later", "POST", "/api/agents/000000000001/events",
      some (.object [("kind", .string "add"), ("literal", .string "f(2)")])⟩
    let crowd := (empty {} "").afterAll [creating "b"]
    (answersTo (idOf 1) ((empty {} "").receive (creating "a")).2
        [asking "/api/agents/000000000001/query"]).map anonymous =
      (answersTo (idOf (crowd.created + 1)) (crowd.receive (creating "a")).2
        [telling, asking "/api/agents/000000000002/query"]).map anonymous := by
  intro creating asking telling crowd
  have path : Route.pathOf "/api/agents" = "/api/agents" := by decide +kernel
  have method : "POST".toUpper = "POST" := by decide +kernel
  have creates (name : String) : (creating name).request.Creates :=
    ⟨by rw [Request.route?, path]; rfl, method⟩
  have created : ((crowd.receive (creating "a")).2.find? (idOf (crowd.created + 1))).isSome := by
    decide +kernel
  have first : telling.request.id? ≠ some (idOf (crowd.created + 1)) := by decide +kernel
  have second : (asking "/api/agents/000000000002/query").request.id? =
    some (idOf (crowd.created + 1)) := by decide +kernel
  have alone : (asking "/api/agents/000000000001/query").request.id? = some (idOf 1) := by
    decide +kernel
  have same : (asking "/api/agents/000000000002/query").request.Readdressed (idOf 1)
      (asking "/api/agents/000000000001/query").request := by
    refine ⟨?_, rfl, rfl⟩
    have one : Route.pathOf "/api/agents/000000000001/query" =
      "/api/agents/000000000001/query" := by decide +kernel
    have two : Route.pathOf "/api/agents/000000000002/query" =
      "/api/agents/000000000002/query" := by decide +kernel
    have named : idOf 1 = "000000000001" := by decide +kernel
    rw [Request.route?, Request.route?, one, two, named]
    rfl
  refine (isolated {} "" "" [creating "b"] [] (creates "a") (creates "a") rfl).2 _ _ created ?_
  have left : [telling, asking "/api/agents/000000000002/query"].filter
      (·.request.id? = some (idOf (crowd.created + 1))) =
        [asking "/api/agents/000000000002/query"] := by
    simp only [List.filter_cons, List.filter_nil, first, second, decide_true, decide_false,
      Bool.false_eq_true, if_true, if_false]
  have right : [asking "/api/agents/000000000001/query"].filter (·.request.id? = some (idOf 1)) =
      [asking "/api/agents/000000000001/query"] := by
    simp only [List.filter_cons, List.filter_nil, alone, decide_true, if_true]
  have aligned : List.Forall₂ (fun one other : Arrival =>
      one.request.Readdressed (idOf 1) other.request)
      [asking "/api/agents/000000000002/query"] [asking "/api/agents/000000000001/query"] :=
    .cons same .nil
  rw [← left, ← right] at aligned
  exact aligned

end Store

end AgentSpeak
