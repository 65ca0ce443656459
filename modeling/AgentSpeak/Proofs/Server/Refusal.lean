import AgentSpeak.Proofs.Agent.Replay
import AgentSpeak.Proofs.Server.Store
import AgentSpeak.Proofs.Term.Deriving

/-!
Refused requests. Whatever makes a server refuse a request, be it an unknown agent, a text that cannot
be read, a belief that is none or a question that fails halfway, shows before the first change of
an agent. And questions change nothing, refused or not.
-/

namespace AgentSpeak

namespace Agent

/-- What can be seen of an agent: the facts that it believes, the events still to handle, its output
so far, and its plans. -/
structure Snapshot where
  facts : List Term
  events : List Trigger
  transcript : List String
  plans : List Plan

def snapshot (agent : Agent) : Snapshot :=
  ⟨agent.beliefs.facts, agent.events, agent.transcript, agent.plans⟩

variable {α β : Type} {computation : AgentM α} {agent : Agent} {fact : Term}

/-- All that an agent believes has a text. -/
def BelievesTexts (agent : Agent) : Prop :=
  ∀ fact ∈ agent.beliefs.facts, fact.isWritable = true

/-- A computation has a result. -/
def Succeeds (computation : AgentM α) (agent : Agent) : Prop :=
  ∃ value after, computation.run.run agent = (.ok value, after)

/-- A computation that fails shows no change of the agent. -/
def Atomic (computation : AgentM α) (agent : Agent) : Prop :=
  ∀ fault, (computation.run.run agent).1 = .error fault →
    (leaves computation agent).snapshot = agent.snapshot

theorem Posts.succeeds {events : List Trigger} {value : α}
    (posts : Posts computation events value) (agent : Agent) : Succeeds computation agent := by
  obtain ⟨journal, ran⟩ := posts agent
  exact ⟨_, _, ran⟩

theorem Succeeds.atomic (succeeds : Succeeds computation agent) : Atomic computation agent := by
  intro fault failed
  obtain ⟨value, after, ran⟩ := succeeds
  rw [ran] at failed
  cases failed

/-- What does not fail may follow. -/
theorem Atomic.bind {next : α → AgentM β} (first : Atomic computation agent)
    (rest : ∀ value after, computation.run.run agent = (.ok value, after) →
      Succeeds (next value) after) : Atomic (computation >>= next) agent := by
  intro fault failed
  rcases outcome : computation.run.run agent with ⟨refused | value, between⟩
  · have same := first refused (congrArg Prod.fst outcome)
    rw [leaves, outcome] at same
    rw [leaves, run_bind, outcome]
    exact same
  · obtain ⟨last, after, ran⟩ := rest value between outcome
    rw [run_bind, outcome] at failed
    cases (congrArg Prod.fst ran).symm.trans failed

theorem atomic_revise {change : BeliefBase → BeliefBase.Revision α}
    (same : ∀ fault, (change agent.beliefs).outcome = .error fault →
      (change agent.beliefs).base = agent.beliefs) : Atomic (revise change) agent := by
  intro fault failed
  obtain ⟨log, ran⟩ := run_revise change agent
  rw [ran] at failed
  rw [leaves, ran, same fault failed]
  rfl

/-- A belief that is refused changes nothing. -/
theorem atomic_addBelief (writable : fact.isWritable = true) : Atomic (addBelief fact) agent := by
  refine (atomic_revise fun _ => BeliefBase.asserting_unchanged writable).bind
    fun added between _ => ?_
  cases added with
  | false => exact ⟨_, _, rfl⟩
  | true =>
    exact ((posts_believed writable).returning true).succeeds between

/-- Beliefs with texts are given up without a fault. -/
theorem atomic_removeBeliefs (texts : agent.BelievesTexts) (pattern : Term) :
    Atomic (removeBeliefs pattern) agent := by
  have writable : ∀ fact ∈ (agent.beliefs.retract agent.limits.occursCheck pattern).1,
      fact.isWritable = true :=
    fun fact member => texts fact (BeliefBase.mem_facts_of_retract member)
  show Atomic (revise (·.retracting agent.limits.occursCheck pattern) >>= _) agent
  refine (atomic_revise fun fault failed => ?_).bind fun removed between ran => ?_
  · obtain ⟨-, fact, member, unwritable⟩ := BeliefBase.announced_error failed
    cases unwritable.symm.trans (writable fact member)
  · obtain ⟨log, whole⟩ := run_revise (·.retracting agent.limits.occursCheck pattern) agent
    obtain ⟨done, -⟩ := Prod.mk.inj (whole.symm.trans ran)
    obtain ⟨rfl, -⟩ := BeliefBase.retracting_ok done
    exact ((posts_dropped writable).returning _).succeeds between

/-- A question changes nothing that can be seen. -/
theorem snapshot_query (formula : Formula) (agent : Agent) :
    (leaves (query formula) agent).snapshot = agent.snapshot := by
  let search := Search.solve agent.limits formula .empty
  obtain ⟨n, same⟩ := agent.beliefs.answers_eq search
  have asked : (answers formula .empty).run.run agent = ((agent.beliefs.answers search).1,
      { agent with beliefs := (agent.beliefs.answers search).2 }) := rfl
  have left : leaves (query formula) agent =
      { agent with beliefs := (agent.beliefs.answers search).2 } := by
    rw [query, leaves, run_bind, asked]
    rcases (agent.beliefs.answers search).1 with fault | found <;> rfl
  rw [left, same]
  rfl

end Agent

namespace Store

/-- All that the agents of a store believe has a text. -/
def BelievesTexts (store : Store) : Prop :=
  ∀ record ∈ store.records, record.agent.BelievesTexts

/-- The ids of the agents in a store, and what can be seen of each. -/
def snapshots (store : Store) : List (String × Agent.Snapshot) :=
  store.records.map fun record => (record.id, record.agent.snapshot)

variable {store after : Store} {record : AgentRecord} {id : String}

/-- An agent that looks the same can be settled without a change. -/
theorem snapshots_settle (distinct : (store.records.map (·.id)).Nodup)
    (found : store.find? id = some record) {agent : Agent}
    (same : agent.snapshot = record.agent.snapshot) :
    (store.settle id agent).snapshots = store.snapshots := by
  rw [snapshots, settle, List.map_map, snapshots]
  refine List.map_congr_left fun other member => ?_
  dsimp only [Function.comp_apply]
  split
  next named =>
    have inside : record ∈ store.records := List.mem_of_find?_eq_some found
    have same' := (beq_iff_eq.mp named).trans (id_of_find? found).symm
    cases List.inj_on_of_nodup_map distinct member inside same'
    exact congrArg (Prod.mk record.id) same
  next => rfl

/-- Work that changes nothing that can be seen of an agent changes nothing in the store. -/
theorem snapshots_perform {α : Type} {work : AgentM α}
    (distinct : (store.records.map (·.id)).Nodup) (found : store.find? id = some record)
    (same : (Agent.leaves work (record.lend store)).snapshot = (record.lend store).snapshot) :
    (store.perform record work).2.snapshots = store.snapshots := by
  rw [perform_eq, id_of_find? found]
  exact snapshots_settle distinct found same

/-- Work that fails and shows no change of the agent changes nothing in the store. -/
theorem snapshots_perform_error {α : Type} {work : AgentM α} {fault : Fault}
    (distinct : (store.records.map (·.id)).Nodup) (found : store.find? id = some record)
    (atomic : Agent.Atomic work (record.lend store))
    (failed : store.perform record work = (.error fault, after)) :
    after.snapshots = store.snapshots := by
  have same := snapshots_perform distinct found (atomic fault (congrArg Prod.fst failed))
  rwa [failed] at same

/-- What an agent is told changes nothing if it is refused, as long as its beliefs have texts. The
literals of a request have one, because they are read. -/
theorem atomic_tell {agent : Agent} (texts : agent.BelievesTexts) (event : EventRequest) :
    Agent.Atomic (tell event) agent := by
  unfold tell
  cases read : Term.read event.literal with
  | error error => exact fun _ _ => rfl
  | ok literal =>
    have writable := Term.isWritable_of_read read
    cases event.kind with
    | achieve =>
      have posts : Agent.Posts (Agent.achieve literal) [.goal literal] () := Agent.posts_post writable
      exact (posts.succeeds agent).atomic
    | add =>
      show Agent.Atomic (do let _ ← Agent.addBelief literal) agent
      exact (Agent.atomic_addBelief writable).bind fun _ _ _ => ⟨_, _, rfl⟩
    | remove =>
      show Agent.Atomic (do let _ ← Agent.removeBeliefs literal) agent
      exact (Agent.atomic_removeBeliefs texts literal).bind fun _ _ _ => ⟨_, _, rfl⟩

theorem snapshot_ask (text : String) (agent : Agent) :
    (Agent.leaves (ask text) agent).snapshot = agent.snapshot := by
  rw [ask, Agent.leaves, Agent.run_bind]
  cases (Formula.read text).mapError Fault.unreadable with
  | error fault => rfl
  | ok formula => exact Agent.snapshot_query formula agent

/-- An answer after which all agents are as before, unless the request was granted. -/
def UnlessGranted (store : Store) (answer : Except Fault Response × Store) : Prop :=
  ∀ response, answer.1 = .ok response → response.status ≠ 200 →
    answer.2.snapshots = store.snapshots

theorem unlessGranted_self (answer : Except Fault Response) : store.UnlessGranted (answer, store) :=
  fun _ _ _ => rfl

theorem unlessGranted_ok (fields : List (String × Json)) :
    store.UnlessGranted (.ok (.ok fields), after) := by
  intro response answered refused
  cases answered
  exact absurd rfl refused

/-- What is made of the outcome of a run is granted, or else no answer. -/
theorem unlessGranted_map {α : Type} (result : Except Fault α)
    (fields : α → List (String × Json)) :
    store.UnlessGranted (result.map fun value => .ok (fields value), after) := by
  intro response answered
  cases result with
  | error fault => cases answered
  | ok value => exact unlessGranted_ok (fields value) response answered

theorem unlessGranted_withAgent {respond : AgentRecord → Except Fault Response × Store}
    (each : ∀ record, store.find? id = some record → store.UnlessGranted (respond record)) :
    store.UnlessGranted (store.withAgent id respond) := by
  unfold withAgent
  split
  next => exact unlessGranted_self _
  next found => exact each _ found

theorem unlessGranted_withBody {α : Type} {body : Option Json} {read : Json → Option α}
    {respond : α → Except Fault Response × Store}
    (each : ∀ value, store.UnlessGranted (respond value)) :
    store.UnlessGranted (store.withBody body read respond) := by
  unfold withBody
  split
  next => exact unlessGranted_self _
  next => exact each _

theorem unlessGranted_respondCreate (request : CreateRequest) :
    store.UnlessGranted (store.respondCreate request) := by
  unfold respondCreate
  split
  next => exact unlessGranted_self _
  next =>
    dsimp only
    split
    next => exact unlessGranted_map _ _
    next => exact unlessGranted_ok _

theorem unlessGranted_respondEvent (distinct : (store.records.map (·.id)).Nodup)
    (texts : store.BelievesTexts) (found : store.find? id = some record) (request : EventRequest) :
    store.UnlessGranted (store.respondEvent record request) := by
  unfold respondEvent
  split
  next fault after told =>
    have own : (record.lend store).BelievesTexts := texts record (List.mem_of_find?_eq_some found)
    have same := snapshots_perform_error distinct found (atomic_tell own request) told
    split <;> exact fun _ _ _ => same
  next => exact unlessGranted_map _ _

/-- A question changes no agent, whatever comes of it. -/
theorem snapshots_respondQuery (distinct : (store.records.map (·.id)).Nodup)
    (found : store.find? id = some record) (text : String) :
    (store.respondQuery record text).2.snapshots = store.snapshots := by
  have asked := snapshots_perform distinct found (snapshot_ask text (record.lend store))
  rw [respondQuery_eq]
  split
  next same =>
    rw [same] at asked
    split <;> exact asked
  next same =>
    rw [same] at asked
    exact asked

theorem unlessGranted_respondAt (distinct : (store.records.map (·.id)).Nodup)
    (texts : store.BelievesTexts) (route : Route) (method : String) (body : Option Json) :
    store.UnlessGranted (store.respondAt route method body) := by
  unfold respondAt
  split
  next => exact unlessGranted_self _
  next => exact unlessGranted_self _
  next => exact unlessGranted_withBody unlessGranted_respondCreate
  next => exact unlessGranted_withAgent fun _ _ => unlessGranted_self _
  next => exact unlessGranted_withAgent fun _ _ => unlessGranted_ok _
  next =>
    refine unlessGranted_withBody fun request => unlessGranted_withAgent fun record found => ?_
    exact unlessGranted_respondEvent distinct texts found request
  next =>
    refine unlessGranted_withBody fun text => unlessGranted_withAgent fun record found => ?_
    exact fun _ _ _ => snapshots_respondQuery distinct found text
  next => exact unlessGranted_self _

theorem snapshots_respondAt_query (distinct : (store.records.map (·.id)).Nodup)
    (method : String) (body : Option Json) :
    (store.respondAt (.query id) method body).2.snapshots = store.snapshots := by
  rw [respondAt_query]
  split
  next =>
    unfold withBody
    split
    next => rfl
    next text _ =>
      unfold withAgent
      split
      next => rfl
      next found => exact snapshots_respondQuery distinct found text
  next => rfl

/-- Where all beliefs have texts, no request changes an agent, or the set of agents, unless it is
granted; and a question never does. -/
theorem refused_unchanged (distinct : (store.records.map (·.id)).Nodup) (request : Request) :
    (store.BelievesTexts → ∀ response, (store.respond request).1 = .ok response →
      response.status ≠ 200 → (store.respond request).2.snapshots = store.snapshots) ∧
    ∀ id, request.route? = some (.query id) →
      (store.respond request).2.snapshots = store.snapshots := by
  refine ⟨fun texts => ?_, fun id asked => ?_⟩
  · show store.UnlessGranted (store.respond request)
    cases taken : request.route? with
    | none =>
      obtain ⟨response, answered⟩ := respond_of_noRoute taken
      rw [answered]
      exact unlessGranted_self _
    | some route =>
      rw [respond_of_route taken]
      exact unlessGranted_respondAt distinct texts _ _ _
  · rw [respond_of_route asked]
    exact snapshots_respondAt_query distinct _ _

/-- An agent that believes `n(10 ** 5000)`, which has no text, is told to give up `n(X)`. This is
refused when the belief is gone. -/
theorem refused_changed :
    let fact := Term.compound "n" [.number (.int (Int.pow 10 5000))]
    let agent := { Agent.idle "a" {} [] .empty 0 with beliefs := ⟨[(⟨"n", 1⟩, [fact])], [], 0⟩ }
    let store : Store := { Store.empty {} "" with records := [⟨"1", agent, "", "", []⟩] }
    let request : Request := ⟨"POST", "/api/agents/1/events",
      some (.object [("kind", .string "remove"), ("literal", .string "n(X)")])⟩
    let (answer, after) := store.respond request
    answer.toOption.map Response.status = some 400 ∧
      store.records.map (fun record => record.agent.beliefs.size) = [1] ∧
      after.records.map (fun record => record.agent.beliefs.size) = [0] := by
  decide +kernel

end Store

end AgentSpeak
