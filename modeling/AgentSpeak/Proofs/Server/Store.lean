import AgentSpeak.Proofs.Agent.Reachable
import AgentSpeak.Proofs.Number.Spelling
import AgentSpeak.Server.Routes
import Mathlib.Data.List.Nodup
import Mathlib.Logic.Relation

namespace AgentSpeak

namespace Text

/-- The number that digits of base 16 denote. -/
def ofHexadecimal (digits : List Char) : Nat :=
  digits.foldl (fun total c => 16 * total + (hexValue? c).getD 0) 0

theorem hexValue?_digitChar : ∀ digit < 16, hexValue? (Nat.digitChar digit) = some digit := by
  decide

theorem ofHexadecimal_toDigits (n : Nat) : ofHexadecimal (Nat.toDigits 16 n) = n := by
  induction n using Nat.strongRecOn with
  | ind n ih =>
    by_cases small : n < 16
    · rw [Nat.toDigits_of_lt_base small]
      simp [ofHexadecimal, hexValue?_digitChar n small]
    · have front := ih (n / 16) (by omega)
      have last := hexValue?_digitChar (n % 16) (by omega)
      rw [ofHexadecimal] at front
      rw [Nat.toDigits_of_base_le (by decide) (by omega), ofHexadecimal, List.foldl_append, front,
        List.foldl_cons, List.foldl_nil, last, Option.getD_some]
      omega

theorem ofHexadecimal_zeros (count : Nat) (digits : List Char) :
    ofHexadecimal (List.replicate count '0' ++ digits) = ofHexadecimal digits := by
  induction count with
  | zero => rfl
  | succ count ih => exact ih

theorem ofHexadecimal_hexadecimal (width n : Nat) :
    ofHexadecimal (hexadecimal width n).toList = n := by
  have digits := ofHexadecimal_toDigits n
  rw [← String.toList_ofList (l := Nat.toDigits 16 n)] at digits
  rw [hexadecimal, String.toList_append, toList_pushn, String.toList_empty, List.nil_append,
    ofHexadecimal_zeros]
  exact digits

end Text

/-- The id in a route. -/
def Route.id? : Route → Option String
  | .root | .agents => none
  | .agent id | .events id | .query id => some id

/-- The route that a request takes. -/
def Request.route? (request : Request) : Option Route :=
  Route.ofPath? (Route.pathOf request.path)

/-- The id that a request is addressed to. -/
def Request.id? (request : Request) : Option String :=
  request.route?.bind Route.id?

/-- The agent without reports. -/
def Agent.quiet (agent : Agent) : Agent :=
  { agent with journal := { agent.journal with log := [] } }

/-- The agent of a record when it works: it goes on counting the intentions of all agents. -/
def AgentRecord.lend (record : AgentRecord) (store : Store) : Agent :=
  { record.agent with intentions := store.intentions }

namespace Store

theorem perform_eq {α : Type} (store : Store) (record : AgentRecord) (work : AgentM α) :
    store.perform record work = ((work.run.run (record.lend store)).1,
      store.settle record.id (Agent.leaves work (record.lend store))) := rfl

/-- No id is given twice. -/
theorem idOf_injective : Function.Injective idOf :=
  have read : Function.LeftInverse (fun id : String => Text.ofHexadecimal id.toList) idOf :=
    Text.ofHexadecimal_hexadecimal 12
  read.injective

/-- A change of a store. It concerns an agent with one of some ids, or it is a creation. -/
inductive Change (ids : String → Prop) : Store → Store → Prop where
  | settled {id : String} (own : ids id) (agent : Agent) : Change ids store (store.settle id agent)
  | deleted {id : String} (own : ids id) : Change ids store (store.delete id)
  | created (made : store.create name source lenient = .ok (record, after)) :
      Change ids store after

/-- One change after the other. -/
abbrev Changes (ids : String → Prop) : Store → Store → Prop :=
  Relation.ReflTransGen (Change ids)

/-- An id that the store has given. -/
def Gave (store : Store) (id : String) : Prop :=
  ∃ n ≤ store.created, id = idOf n

/-- The agents of a store have ids of their own, and the store gave them. -/
structure IsRegular (store : Store) : Prop where
  distinct : (store.records.map (·.id)).Nodup
  gave : ∀ record ∈ store.records, store.Gave record.id

variable {store after : Store} {ids : String → Prop} {id : String} {record : AgentRecord}

theorem create_eq {name source : String} {lenient : Bool}
    (made : store.create name source lenient = .ok (record, after)) :
    record.id = idOf (store.created + 1) ∧ after.records = store.records ++ [record] ∧
      after.created = store.created + 1 ∧ after.limits = store.limits := by
  rw [create] at made
  cases read : Program.read source !lenient with
  | error error =>
    rw [read] at made
    cases made
  | ok reading =>
    rw [read] at made
    obtain ⟨rfl, rfl⟩ := Prod.mk.inj (Except.ok.inj made)
    exact ⟨rfl, rfl, rfl, rfl⟩

theorem ids_settle (agent : Agent) :
    (store.settle id agent).records.map (·.id) = store.records.map (·.id) := by
  rw [settle, List.map_map]
  refine List.map_congr_left fun record _ => ?_
  dsimp only [Function.comp_apply]
  split <;> rfl

theorem Gave.mono (gave : store.Gave id) (more : store.created ≤ after.created) :
    after.Gave id :=
  gave.imp fun _ ⟨bound, same⟩ => ⟨Nat.le_trans bound more, same⟩

/-- The next id was never given. -/
theorem Gave.ne_next (gave : store.Gave id) : id ≠ idOf (store.created + 1) := by
  obtain ⟨n, bound, rfl⟩ := gave
  exact fun same => absurd (idOf_injective same) (by omega)

theorem Change.created_le (change : Change ids store after) : store.created ≤ after.created := by
  cases change with
  | settled own agent => exact Nat.le_refl _
  | deleted own => exact Nat.le_refl _
  | created made => exact (create_eq made).2.2.1 ▸ Nat.le_succ _

theorem Change.limits_eq (change : Change ids store after) : after.limits = store.limits := by
  cases change with
  | settled own agent => rfl
  | deleted own => rfl
  | created made => exact (create_eq made).2.2.2

theorem isRegular_empty (limits : Limits) (now : String) : (empty limits now).IsRegular :=
  ⟨List.nodup_nil, fun _ member => (List.not_mem_nil member).elim⟩

theorem IsRegular.change (regular : store.IsRegular) (change : Change ids store after) :
    after.IsRegular := by
  cases change with
  | settled own agent =>
    refine ⟨by rw [ids_settle]; exact regular.distinct, fun record member => ?_⟩
    have known : record.id ∈ store.records.map (·.id) := by
      rw [← ids_settle agent]
      exact List.mem_map_of_mem member
    obtain ⟨old, member, same⟩ := List.mem_map.mp known
    exact same ▸ regular.gave old member
  | deleted own =>
    refine ⟨regular.distinct.sublist (List.filter_sublist.map _), fun record member => ?_⟩
    exact regular.gave record (List.mem_filter.mp member).1
  | created made =>
    obtain ⟨fresh, records, more, -⟩ := create_eq made
    refine ⟨?_, fun other member => ?_⟩
    · rw [records, List.map_append, List.nodup_append]
      refine ⟨regular.distinct, List.nodup_singleton _, fun known member other last => ?_⟩
      obtain ⟨old, inside, rfl⟩ := List.mem_map.mp member
      rw [List.map_singleton, List.mem_singleton] at last
      rw [last, fresh]
      exact (regular.gave old inside).ne_next
    · rw [records, List.mem_append, List.mem_singleton] at member
      obtain old | rfl := member
      · exact (regular.gave other old).mono (more ▸ Nat.le_succ _)
      · exact ⟨store.created + 1, more ▸ Nat.le_refl _, fresh⟩

theorem id_of_find? (found : store.find? id = some record) : record.id = id := by
  have holds := List.find?_some found
  exact beq_iff_eq.mp holds

/-- An agent that is settled is found as it was settled, and all others are found as before. -/
theorem find?_settle (concerned : String) (agent : Agent) :
    (store.settle concerned agent).find? id = (store.find? id).map fun record =>
      if record.id == concerned then { record with agent := agent.quiet } else record := by
  rw [find?, settle, List.find?_map]
  refine congrArg (Option.map _) (congrArg (List.find? · store.records) (funext fun record => ?_))
  dsimp only [Function.comp_apply]
  split <;> rfl

theorem find?_settle_self (agent : Agent) (found : store.find? id = some record) :
    (store.settle id agent).find? id = some { record with agent := agent.quiet } := by
  rw [find?_settle, found, Option.map_some, if_pos (beq_iff_eq.mpr (id_of_find? found))]

theorem find?_delete_self (id : String) : (store.delete id).find? id = none := by
  rw [find?, delete, List.find?_filter, List.find?_eq_none]
  simp

/-- The agent that was created is found under its id. -/
theorem find?_create {name source : String} {lenient : Bool}
    (gave : ∀ record ∈ store.records, store.Gave record.id)
    (made : store.create name source lenient = .ok (record, after)) :
    after.find? record.id = some record := by
  obtain ⟨fresh, records, -⟩ := create_eq made
  have none : store.records.find? (·.id == record.id) = none := by
    refine List.find?_eq_none.mpr fun old member same => ?_
    exact (gave old member).ne_next ((beq_iff_eq.mp same).trans fresh)
  rw [find?, records, List.find?_append, none]
  simp

theorem IsRegular.gave_of_find? (regular : store.IsRegular) (found : store.find? id = some record) :
    store.Gave id := by
  rw [← id_of_find? found]
  exact regular.gave record (List.mem_of_find?_eq_some found)

theorem IsRegular.find?_next (regular : store.IsRegular) :
    store.find? (idOf (store.created + 1)) = none := by
  refine List.find?_eq_none.mpr fun record member same => ?_
  exact (regular.gave record member).ne_next (beq_iff_eq.mp same)

/-- A change that does not concern an agent leaves it as it was. -/
theorem Change.find?_eq (change : Change ids store after) (gave : store.Gave id)
    (other : ¬ids id) : after.find? id = store.find? id := by
  cases change with
  | @settled concerned own agent =>
    rw [find?_settle]
    cases found : store.find? id with
    | none => rfl
    | some record =>
      have apart : (record.id == concerned) = false := by
        rw [beq_eq_false_iff_ne, id_of_find? found]
        exact fun same => other (same ▸ own)
      rw [Option.map_some, apart, if_neg Bool.false_ne_true]
  | @deleted concerned own =>
    have apart : concerned ≠ id := fun same => other (same ▸ own)
    rw [delete, find?, List.find?_filter, find?]
    refine congrArg (List.find? · store.records) (funext fun record => ?_)
    by_cases same : record.id = id
    · simp [same, apart.symm]
    · simp [same]
  | created made =>
    obtain ⟨fresh, records, -⟩ := create_eq made
    have apart := gave.ne_next
    rw [← fresh] at apart
    rw [find?, records, List.find?_append, find?]
    simp [apart.symm]

/-- The ids that a request can concern: the one that it is addressed to, and the next one. -/
def Concerns (store : Store) (request : Request) (id : String) : Prop :=
  request.id? = some id ∨ id = idOf (store.created + 1)

variable {request : Request}

theorem changes_withAgent {respond : AgentRecord → Except Fault Response × Store}
    (each : ∀ record, store.find? id = some record → Changes ids store (respond record).2) :
    Changes ids store (store.withAgent id respond).2 := by
  unfold withAgent
  split
  next => exact .refl
  next found => exact each _ found

theorem changes_withBody {α : Type} {body : Option Json} {read : Json → Option α}
    {respond : α → Except Fault Response × Store}
    (each : ∀ value, Changes ids store (respond value).2) :
    Changes ids store (store.withBody body read respond).2 := by
  unfold withBody
  split
  next => exact .refl
  next => exact each _

/-- What an agent does when it is asked something. -/
def ask (text : String) : AgentM (List (List (Variable × Term))) := do
  Agent.query (← Agent.ofExcept ((Formula.read text).mapError Fault.unreadable))

/-- What is told about a solution. -/
def solution (bindings : List (Variable × Term)) : Json :=
  .object (bindings.map fun (v, value) => (v.name, .string value.render))

/-- Whether all solutions can be told. -/
def areWritable (solutions : List (List (Variable × Term))) : Bool :=
  solutions.all fun bindings => bindings.all fun (_, value) => value.isWritable

theorem respondQuery_eq (store : Store) (record : AgentRecord) (text : String) :
    store.respondQuery record text =
      match store.perform record (ask text) with
      | (.error fault, after) =>
          if fault.isProgramFault then (.ok (.refusal 400 fault.message), after)
          else (.error fault, after)
      | (.ok solutions, after) =>
          (if areWritable solutions then
            .ok (.ok [("query", .string text), ("solutions", .array (solutions.map solution))])
          else .error .unwritable, after) := by
  unfold respondQuery ask solution areWritable
  rfl

theorem respond_of_route {request : Request} {route : Route}
    (taken : request.route? = some route) :
    store.respond request = store.respondAt route request.method.toUpper request.body := by
  rw [Request.route?] at taken
  unfold respond
  dsimp only
  rw [taken]

/-- A request without a route is sent elsewhere or refused. -/
theorem respond_of_noRoute {request : Request} (none : request.route? = none) :
    ∃ response : Response, store.respond request = (.ok response, store) := by
  rw [Request.route?] at none
  unfold respond
  dsimp only
  rw [none]
  dsimp only
  split
  next => exact ⟨_, rfl⟩
  next => exact ⟨_, rfl⟩

theorem respondAt_agent (store : Store) (id method : String) (body : Option Json) :
    store.respondAt (.agent id) method body =
      if method = "GET" then store.withAgent id store.respondFields
      else if method = "DELETE" then
        store.withAgent id fun _ => (.ok (.ok [("deleted", .string id)]), store.delete id)
      else (.ok (.refusal 405 "Method Not Allowed"), store) := by
  unfold respondAt
  split <;> simp_all

theorem respondAt_events (store : Store) (id method : String) (body : Option Json) :
    store.respondAt (.events id) method body =
      if method = "POST" then store.withBody body EventRequest.ofJson? fun request =>
        store.withAgent id fun record => store.respondEvent record request
      else (.ok (.refusal 405 "Method Not Allowed"), store) := by
  unfold respondAt
  split <;> simp_all

theorem respondAt_query (store : Store) (id method : String) (body : Option Json) :
    store.respondAt (.query id) method body =
      if method = "POST" then store.withBody body queryOfJson? fun text =>
        store.withAgent id fun record => store.respondQuery record text
      else (.ok (.refusal 405 "Method Not Allowed"), store) := by
  unfold respondAt
  split <;> simp_all

theorem changes_perform {α : Type} (record : AgentRecord) (work : AgentM α)
    (own : ids record.id) : Changes ids store (store.perform record work).2 :=
  .single (.settled own _)

theorem changes_respondCreate (body : CreateRequest) (next : ids (idOf (store.created + 1))) :
    Changes ids store (store.respondCreate body).2 := by
  unfold respondCreate
  split
  next => exact .refl
  next record created made =>
    have begun : Changes ids store created := .single (.created made)
    split
    next =>
      refine begun.trans ?_
      exact changes_perform record (Agent.work none) ((create_eq made).1 ▸ next)
    next => exact begun

theorem changes_respondEvent (event : EventRequest) (found : store.find? id = some record)
    (own : ids id) : Changes ids store (store.respondEvent record event).2 := by
  rw [← id_of_find? found] at own
  have told : Changes ids store (store.perform record (tell event)).2 :=
    changes_perform record _ own
  unfold respondEvent
  split
  next fault after same =>
    rw [same] at told
    split <;> exact told
  next done after same =>
    rw [same] at told
    refine told.trans ?_
    refine changes_perform ((after.find? record.id).getD record) (Agent.work event.maxCycles) ?_
    cases again : after.find? record.id with
    | none => exact own
    | some later => exact (id_of_find? again).symm ▸ own

theorem changes_respondQuery (text : String) (found : store.find? id = some record)
    (own : ids id) : Changes ids store (store.respondQuery record text).2 := by
  rw [← id_of_find? found] at own
  have asked : Changes ids store (store.perform record (ask text)).2 :=
    changes_perform record _ own
  rw [respondQuery_eq]
  split
  next same =>
    rw [same] at asked
    split <;> exact asked
  next same =>
    rw [same] at asked
    exact asked

/-- A request changes nothing but the agent that it is addressed to, and one that it creates. -/
theorem changes_respond (store : Store) (request : Request) :
    Changes (store.Concerns request) store (store.respond request).2 := by
  have own {route : Route} {id : String} (taken : request.route? = some route)
      (named : route.id? = some id) : store.Concerns request id := by
    refine .inl ?_
    rw [Request.id?, taken, Option.bind_some, named]
  cases taken : request.route? with
  | none =>
    obtain ⟨response, answered⟩ := respond_of_noRoute taken
    rw [answered]
  | some route =>
    rw [respond_of_route taken]
    unfold respondAt
    split
    next => exact .refl
    next => exact .refl
    next => exact changes_withBody fun body => changes_respondCreate body (.inr rfl)
    next => exact changes_withAgent fun _ _ => .refl
    next => exact changes_withAgent fun _ _ => .single (.deleted (own taken rfl))
    next =>
      refine changes_withBody fun event => changes_withAgent fun record found => ?_
      exact changes_respondEvent event found (own taken rfl)
    next =>
      refine changes_withBody fun text => changes_withAgent fun record found => ?_
      exact changes_respondQuery text found (own taken rfl)
    next => exact .refl

theorem IsRegular.changes (regular : store.IsRegular) (changes : Changes ids store after) :
    after.IsRegular := by
  induction changes with
  | refl => exact regular
  | tail _ change ih => exact ih.change change

theorem IsRegular.respond (regular : store.IsRegular) (request : Request) :
    (store.respond request).2.IsRegular :=
  regular.changes (changes_respond store request)

theorem Changes.created_le (changes : Changes ids store after) :
    store.created ≤ after.created := by
  induction changes with
  | refl => exact Nat.le_refl _
  | tail _ change ih => exact Nat.le_trans ih change.created_le

theorem Changes.limits_eq (changes : Changes ids store after) : after.limits = store.limits := by
  induction changes with
  | refl => rfl
  | tail _ change ih => exact change.limits_eq.trans ih

/-- Changes that do not concern an agent leave it as it was. -/
theorem Changes.find?_eq (changes : Changes ids store after) (gave : store.Gave id)
    (other : ¬ids id) : after.find? id = store.find? id := by
  induction changes with
  | refl => rfl
  | tail before change ih =>
    rw [change.find?_eq (gave.mono (Changes.created_le before)) other, ih]

/-- A request that is addressed to no agent or to another one leaves an agent as it was. -/
theorem find?_respond (gave : store.Gave id) (elsewhere : request.id? ≠ some id) :
    (store.respond request).2.find? id = store.find? id := by
  refine Changes.find?_eq (changes_respond store request) gave ?_
  rintro (addressed | next)
  · exact elsewhere addressed
  · exact gave.ne_next next

theorem Gave.respond (gave : store.Gave id) (request : Request) :
    (store.respond request).2.Gave id :=
  gave.mono (Changes.created_le (changes_respond store request))

end Store

end AgentSpeak
