import AgentSpeak.Proofs.Agent.Keeping
import AgentSpeak.Proofs.Beliefs.Membership

/-!
Belief events and belief changes. The events that an operation posts are replayed on the set of
facts that was believed before, where each of them has to report a change. What comes out is the set
of facts that is believed afterwards.
-/

namespace AgentSpeak

/-- What the event of a belief makes of a set of facts: it adds a fact that is not there, or takes
one away that is. Other events say nothing about beliefs. -/
def Trigger.replay? (event : Trigger) (believed : Term → Bool) : Option (Term → Bool) :=
  match event.subject, event.change with
  | .belief, .addition =>
      if believed event.literal then none
      else some fun term => believed term || event.literal == term
  | .belief, .deletion =>
      if believed event.literal then some fun term => believed term && !(event.literal == term)
      else none
  | _, _ => some believed

/-- Events replayed in order. -/
def replay? (events : List Trigger) (believed : Term → Bool) : Option (Term → Bool) :=
  events.foldlM (fun believed event => event.replay? believed) believed

section Replaying

variable {facts : List Term} {fact : Term} {believed : Term → Bool}

@[simp] theorem replay?_nil (believed : Term → Bool) : replay? [] believed = some believed := rfl

@[simp] theorem replay?_cons (event : Trigger) (events : List Trigger) (believed : Term → Bool) :
    replay? (event :: events) believed = (event.replay? believed).bind (replay? events) := rfl

theorem replay?_append (events others : List Trigger) (believed : Term → Bool) :
    replay? (events ++ others) believed = (replay? events believed).bind (replay? others) :=
  List.foldlM_append

theorem replay?_believed (new : believed fact = false) :
    (Trigger.believed fact).replay? believed = some fun term => believed term || fact == term := by
  simp [Trigger.replay?, Trigger.believed, new]

theorem replay?_dropped (old : believed fact = true) :
    (Trigger.dropped fact).replay? believed =
      some fun term => believed term && !(fact == term) := by
  simp [Trigger.replay?, Trigger.dropped, old]

/-- Distinct facts that are all believed can be dropped one after the other. -/
theorem replay?_map_dropped (distinct : DistinctFacts facts)
    (present : ∀ fact ∈ facts, believed fact = true) :
    replay? (facts.map Trigger.dropped) believed =
      some fun term => believed term && !factSet facts term := by
  induction facts generalizing believed with
  | nil => simp
  | cons fact rest ih =>
    obtain ⟨apart, others⟩ := List.pairwise_cons.mp distinct
    rw [List.map_cons, replay?_cons, replay?_dropped (present fact List.mem_cons_self),
      Option.bind_some, ih others]
    · simp [Bool.and_assoc]
    · intro other member
      rw [present other (List.mem_cons_of_mem _ member), apart other member]
      rfl

end Replaying

namespace Agent

variable {agent : Agent} {queued : List Trigger} {fact : Term} {θ : Substitution}

/-- The facts that are believed, equal ones counted as one. -/
def believed (agent : Agent) : Term → Bool :=
  factSet agent.beliefs.facts

/-- What comes to the queue of a group of events: all of them, or none if one of them has no text. -/
def reported (events : List Trigger) : List Trigger :=
  if events.all Trigger.isWritable then events else []

/-- What came to the beliefs between two moments are groups of events, and what came to the queue is
what is reported of them. -/
def Mirrored (before after : Agent) : Prop :=
  ∃ groups : List (List Trigger), after.events = before.events ++ groups.flatMap reported ∧
    replay? groups.flatten before.believed = some after.believed

/-- If the beliefs are a set, they stay one, and the change of it is reported. -/
def Mirrors (before after : Agent) : Prop :=
  before.beliefs.IsSet → after.beliefs.IsSet ∧ Mirrored before after

theorem mirrored_of_same {before after : Agent} (events : after.events = before.events)
    (believed : after.believed = before.believed) : Mirrored before after :=
  ⟨[], events.trans (List.append_nil _).symm, congrArg some believed.symm⟩

theorem mirrors_refl (agent : Agent) : Mirrors agent agent :=
  fun set => ⟨set, mirrored_of_same rfl rfl⟩

theorem Mirrors.trans {one two three : Agent} (first : Mirrors one two)
    (second : Mirrors two three) : Mirrors one three := by
  intro set
  obtain ⟨setTwo, groups, grown, replayed⟩ := first set
  obtain ⟨setThree, others, grownAgain, replayedAgain⟩ := second setTwo
  refine ⟨setThree, groups ++ others, ?_, ?_⟩
  · rw [grownAgain, grown, List.append_assoc, List.flatMap_append]
  · rw [List.flatten_append, replay?_append, replayed, Option.bind_some, replayedAgain]

/-- Nothing else than a change of belief or an event concerns the report. -/
theorem bookkeeping_mirrors : Bookkeeping Mirrors where
  refl := mirrors_refl
  trans := Mirrors.trans
  noted _ _ _ set := ⟨set, mirrored_of_same rfl rfl⟩
  renamed _ _ set := ⟨set, mirrored_of_same rfl rfl⟩
  searched _ n set := ⟨⟨set.toOrdered.renamed n, set.distinct⟩, mirrored_of_same rfl rfl⟩

/-- Events that all have texts are reported as they are. -/
theorem reported_eq {events : List Trigger} (writable : ∀ event ∈ events, event.isWritable = true) :
    reported events = events :=
  if_pos (List.all_eq_true.mpr writable)

theorem reported_eq_nil {events : List Trigger} {event : Trigger} (member : event ∈ events)
    (unwritable : event.isWritable = false) : reported events = [] := by
  refine if_neg fun writable => ?_
  rw [List.all_eq_true.mp writable event member] at unwritable
  cases unwritable

section Posting

variable {α β : Type} {queued others : List Trigger}

/-- A computation that succeeds with a value, puts events in the queue, and changes nothing else but
the journal. -/
def Posts (computation : AgentM α) (queued : List Trigger) (value : α) : Prop :=
  ∀ agent, ∃ journal, computation.run.run agent =
    (.ok value, { agent with events := agent.events ++ queued, journal })

/-- A computation that puts events in the queue, and leaves nothing else changed but the journal,
whether it fails or not. -/
def Queues (computation : AgentM α) (queued : List Trigger) : Prop :=
  ∀ agent, ∃ journal,
    leaves computation agent = { agent with events := agent.events ++ queued, journal }

theorem Posts.queues {computation : AgentM α} {value : α} (posts : Posts computation queued value) :
    Queues computation queued := by
  intro agent
  obtain ⟨journal, ran⟩ := posts agent
  exact ⟨journal, by rw [leaves, ran]⟩

theorem posts_pure (value : α) : Posts (pure value) [] value := by
  intro agent
  refine ⟨agent.journal, ?_⟩
  rw [List.append_nil]
  rfl

theorem posts_post {event : Trigger} (writable : event.isWritable = true) :
    Posts (post event) [event] () := by
  intro agent
  obtain ⟨log, ran⟩ := run_post event agent
  exact ⟨_, by rw [ran, if_pos writable]⟩

theorem Posts.bind {first : AgentM α} {next : α → AgentM β} {value : α} {last : β}
    (one : Posts first queued value) (two : Posts (next value) others last) :
    Posts (first >>= next) (queued ++ others) last := by
  intro agent
  obtain ⟨journal, ran⟩ := one agent
  obtain ⟨final, ranAgain⟩ := two { agent with events := agent.events ++ queued, journal }
  refine ⟨final, ?_⟩
  rw [run_bind, ran, ← List.append_assoc]
  exact ranAgain

theorem Posts.returning {computation : AgentM α} {value : α}
    (posts : Posts computation queued value) (result : β) :
    Posts (do let _ ← computation; return result) queued result := by
  have whole : Posts (do let _ ← computation; return result) (queued ++ []) result :=
    posts.bind (posts_pure result)
  rwa [List.append_nil] at whole

theorem posts_forM {items : List α} {each : α → AgentM PUnit} {events : α → List Trigger}
    (one : ∀ item ∈ items, Posts (each item) (events item) ()) :
    Posts (items.forM each) (items.flatMap events) () := by
  induction items with
  | nil => exact posts_pure ()
  | cons item rest ih =>
    refine (one item List.mem_cons_self).bind ?_
    exact ih fun other member => one other (List.mem_cons_of_mem _ member)

theorem posts_dropped {facts : List Term} (writable : ∀ fact ∈ facts, fact.isWritable = true) :
    Posts (facts.forM fun fact => post (.dropped fact)) (facts.map .dropped) () := by
  rw [List.map_eq_flatMap]
  exact posts_forM fun fact member => posts_post (writable fact member)

theorem posts_believed (writable : fact.isWritable = true) :
    Posts (post (.believed fact)) [.believed fact] () :=
  posts_post writable

/-- The events of a fact put in place of others: these are dropped but for the fact itself, which is
new if it is none of them. -/
def replacement (removed : List Term) (fact : Term) : List Trigger :=
  (removed.filter fun old => !(old == fact)).map .dropped ++
    if removed.any (· == fact) then [] else [.believed fact]

theorem reported_replacement {removed : List Term} (factWritable : fact.isWritable = true)
    (writable : ∀ old ∈ removed, old.isWritable = true) :
    reported (replacement removed fact) = replacement removed fact := by
  refine reported_eq (List.forall_mem_append.mpr ⟨?_, fun event member => ?_⟩)
  · exact List.forall_mem_map.mpr fun old member => writable old (List.mem_filter.mp member).1
  · split at member
    next => cases member
    next =>
      rw [List.mem_singleton.mp member]
      exact factWritable

/-- What is left to do of a replacement when the beliefs have changed. -/
theorem posts_replaced (θ : Substitution) {removed : List Term}
    (factWritable : fact.isWritable = true) (writable : ∀ old ∈ removed, old.isWritable = true) :
    Posts (do
      (removed.filter fun old => !(old == fact)).forM fun old => post (.dropped old)
      unless removed.any (· == fact) do post (.believed fact)
      return Effect.proceeded θ [])
      (replacement removed fact) (.proceeded θ []) := by
  have adding (again : Bool) : Posts (do
      unless again do post (.believed fact)
      return Effect.proceeded θ []) (if again then [] else [.believed fact]) (.proceeded θ []) := by
    cases again with
    | true => exact posts_pure _
    | false => exact (posts_believed factWritable).returning _
  exact (posts_dropped fun old member => writable old (List.mem_filter.mp member).1).bind (adding _)

theorem queues_post (event : Trigger) : Queues (post event) (reported [event]) := by
  by_cases writable : event.isWritable = true
  · rw [reported_eq (List.forall_mem_singleton.mpr writable)]
    exact (posts_post writable).queues
  · rw [reported_eq_nil List.mem_cons_self (Bool.eq_false_iff.mpr writable)]
    intro agent
    obtain ⟨log, ran⟩ := run_post event agent
    exact ⟨agent.journal, by rw [leaves, ran, if_neg writable, List.append_nil]⟩

theorem Queues.returning {computation : AgentM α} (queues : Queues computation queued)
    (value : β) : Queues (do let _ ← computation; return value) queued := by
  intro agent
  obtain ⟨journal, same⟩ := queues agent
  refine ⟨journal, ?_⟩
  rw [← same, leaves, run_bind, leaves]
  rcases computation.run.run agent with ⟨fault | done, after⟩ <;> rfl

end Posting

section Changing

variable {α β : Type} {change : BeliefBase → BeliefBase.Revision α}

/-- A change of belief is mirrored if a group of events tells it that is reported then, or, if the
change fails, not reported at all. -/
theorem mirrors_revise {next : α → AgentM β}
    (kept : agent.beliefs.IsSet → (change agent.beliefs).base.IsSet)
    (tells : agent.beliefs.IsSet → ∃ events,
      replay? events agent.beliefs.contains = some (change agent.beliefs).base.contains ∧
        (∀ fault, (change agent.beliefs).outcome = .error fault → reported events = []) ∧
        ∀ value, (change agent.beliefs).outcome = .ok value →
          Queues (next value) (reported events)) :
    Mirrors agent (leaves (revise change >>= next) agent) := by
  intro set
  have later := kept set
  obtain ⟨events, replayed, refused, accepted⟩ := tells set
  have told (journal : Journal) : ∃ final,
      leaves (revise change >>= next) agent = { agent with
        events := agent.events ++ reported events
        beliefs := (change agent.beliefs).base, journal := final } := by
    obtain ⟨log, ran⟩ := run_revise change agent
    rw [leaves, run_bind, ran]
    cases outcome : (change agent.beliefs).outcome with
    | error fault => exact ⟨_, by rw [refused fault outcome, List.append_nil]⟩
    | ok value => exact accepted value outcome _
  obtain ⟨journal, same⟩ := told agent.journal
  rw [same]
  refine ⟨later, [events], by simp, ?_⟩
  rw [believed, believed, set.factSet_facts, later.factSet_facts, List.flatten_singleton, replayed]

end Changing

theorem leaves_get {α : Type} (next : Agent → AgentM α) (agent : Agent) :
    leaves (get >>= next) agent = leaves (next agent) agent := rfl

theorem mirrors_resolve {α : Type} {θ : Substitution} {term : Term} {next : Term → AgentM α}
    (rest : ∀ value, θ.resolve term = .ok value → Mirrors agent (leaves (next value) agent)) :
    Mirrors agent (leaves (resolve θ term >>= next) agent) := by
  rw [leaves, run_bind]
  cases resolved : θ.resolve term with
  | error fault =>
    simp only [resolve, resolved]
    exact mirrors_refl agent
  | ok value =>
    simp only [resolve, resolved]
    exact rest value resolved

/-- A new fact is reported, and one that was there is not. -/
theorem keeps_addBelief (fact : Term) : Keeps Mirrors (addBelief fact) := by
  intro agent
  refine mirrors_revise (fun set => set.asserting fact) fun set => ?_
  dsimp only [BeliefBase.asserting]
  split
  next fault refused => exact ⟨[], rfl, fun _ _ => rfl, fun _ done => nomatch done⟩
  next same done =>
    obtain ⟨key, -, ⟨-, rfl⟩ | ⟨⟨⟩, -⟩⟩ := BeliefBase.assert_ok done
    refine ⟨[], rfl, fun _ _ => rfl, ?_⟩
    rintro _ ⟨⟩
    exact (posts_pure _).queues
  next larger done =>
    obtain ⟨-, fresh, whole⟩ := set.assert done
    have absent : agent.beliefs.contains fact = false := by simpa using fresh
    refine ⟨[.believed fact], ?_, fun fault failed => ?_, fun new done => ?_⟩
    · rw [replay?_cons, replay?_believed absent]
      exact congrArg some (funext whole).symm
    · obtain ⟨-, other, member, unwritable⟩ := BeliefBase.announced_error failed
      rw [List.mem_singleton.mp member] at unwritable
      exact reported_eq_nil List.mem_cons_self unwritable
    · obtain ⟨writable, rfl⟩ := BeliefBase.announced_ok done
      exact (queues_post (.believed fact)).returning true

/-- What is retracted is reported fact by fact. -/
theorem keeps_removeBeliefs (pattern : Term) : Keeps Mirrors (removeBeliefs pattern) := by
  intro agent
  rw [removeBeliefs, leaves_get]
  refine mirrors_revise (fun set => set.retracting _ pattern) fun set => ?_
  obtain ⟨-, distinct, inside, left⟩ := set.retract agent.limits.occursCheck pattern
  refine ⟨(agent.beliefs.retract agent.limits.occursCheck pattern).1.map .dropped, ?_,
    fun fault failed => ?_, fun removed done => ?_⟩
  · refine (replay?_map_dropped distinct fun fact member => set.contains_of_mem
      (inside fact member)).trans ?_
    exact congrArg some (funext left).symm
  · obtain ⟨-, fact, member, unwritable⟩ := BeliefBase.announced_error failed
    exact reported_eq_nil (List.mem_map_of_mem member) unwritable
  · obtain ⟨rfl, writable⟩ := BeliefBase.retracting_ok done
    rw [reported_eq (List.forall_mem_map.mpr writable)]
    exact ((posts_dropped writable).returning _).queues

/-- The event names the pattern under the bindings that matched it, which is the fact given up. If the
fact has no text, no event is posted. -/
theorem keeps_executeRemove (acyclic : θ.Acyclic) (literal : Term) :
    Keeps Mirrors (executeRemove θ literal) := by
  intro agent
  refine mirrors_resolve fun pattern _ => ?_
  rw [leaves_get]
  refine mirrors_revise (fun set => set.removing _ pattern θ) fun set => ?_
  dsimp only [BeliefBase.removing]
  split
  next =>
    refine ⟨[], rfl, fun _ _ => rfl, ?_⟩
    rintro _ ⟨⟩
    exact (posts_pure _).queues
  next fact extended remaining done =>
    obtain ⟨-, inside, unified, left⟩ := set.remove? done
    have present := set.contains_of_mem inside
    by_cases writable : fact.isWritable = true
    · have matched := acyclic.apply_beq_of_isGround (set.ground fact inside) unified
      refine ⟨[.dropped (extended.apply pattern)], ?_, fun fault failed => ?_, fun found done => ?_⟩
      · rw [replay?_cons, replay?_dropped ((set.contains_congr matched).trans present)]
        refine congrArg some (funext fun term => ?_)
        rw [BEq.congr_left matched]
        exact (left term).symm
      · obtain ⟨-, other, member, unwritable⟩ := BeliefBase.announced_error failed
        rw [List.mem_singleton.mp member, writable] at unwritable
        cases unwritable
      · obtain ⟨-, rfl⟩ := BeliefBase.announced_ok done
        exact (queues_post _).returning _
    · refine ⟨[.dropped fact], ?_, fun fault failed => ?_, fun found done => ?_⟩
      · rw [replay?_cons, replay?_dropped present]
        exact congrArg some (funext left).symm
      · exact reported_eq_nil List.mem_cons_self (Bool.eq_false_iff.mpr writable)
      · exact absurd ((BeliefBase.announced_ok done).1 fact List.mem_cons_self) writable

theorem replay?_replacement {base : BeliefBase} {removed : List Term} (set : base.IsSet)
    (distinct : DistinctFacts removed) (inside : ∀ old ∈ removed, old ∈ base.facts)
    (present : base.contains fact = true → factSet removed fact = true) :
    replay? (replacement removed fact) base.contains =
      some fun term => base.contains term && !factSet removed term || fact == term := by
  have others : factSet (removed.filter fun old => !(old == fact)) =
      fun term => factSet removed term && !(term == fact) := funext fun term =>
    factSet_filter (fun old other equal => congrArg _ (BEq.congr_left equal)) removed term
  rw [replacement, replay?_append, replay?_map_dropped (distinct.filter _)
    fun old member => set.contains_of_mem (inside old (List.mem_filter.mp member).1),
    Option.bind_some, others]
  split
  next again =>
    rw [replay?_nil, Option.some.injEq]
    funext term
    by_cases equal : (fact == term) = true
    · obtain ⟨other, member, same⟩ := List.any_eq_true.mp again
      have old : base.contains term = true := by
        rw [← set.contains_congr (BEq.trans same equal)]
        exact set.contains_of_mem (inside other member)
      simp [old, equal, BEq.symm equal]
    · have apart : (term == fact) = false := by
        rw [BEq.comm]
        exact Bool.eq_false_iff.mpr equal
      simp [apart, Bool.eq_false_iff.mpr equal]
  next missing =>
    have none : factSet removed fact = false := Bool.eq_false_iff.mpr missing
    have new : base.contains fact = false := by
      rw [Bool.eq_false_iff]
      exact fun old => missing (present old)
    rw [replay?_cons, replay?_believed (by simp [new]), Option.bind_some, replay?_nil,
      Option.some.injEq]
    funext term
    by_cases equal : (term == fact) = true
    · simp [BEq.symm equal]
    · simp [Bool.eq_false_iff.mpr equal]

/-- The facts like a new one are reported as given up, but not the fact itself. If one of them has no
text, nothing is reported. -/
theorem keeps_executeReplace (θ : Substitution) (literal : Term) :
    Keeps Mirrors (executeReplace θ literal) := by
  intro agent
  refine mirrors_resolve fun fact _ => ?_
  rw [leaves_get]
  refine mirrors_revise (fun set => set.replacing _ fact) fun set => ?_
  generalize agent.limits.occursCheck = check
  have retracting := set.retract check (BeliefBase.anyLike fact)
  have present : agent.beliefs.contains fact = true → _ := set.cleared check
  rcases retracted : agent.beliefs.retract check (BeliefBase.anyLike fact) with ⟨removed, cleared⟩
  rw [retracted] at retracting present
  obtain ⟨setCleared, distinct, inside, left⟩ := retracting
  have dropped := replay?_map_dropped distinct fun old member =>
    set.contains_of_mem (inside old member)
  rcases BeliefBase.replacing_cases retracted with
    ⟨fault, same⟩ | ⟨old, member, unwritable, same⟩ | ⟨key, filed, writable, same⟩
  · rw [same]
    refine ⟨[], rfl, fun _ _ => rfl, ?_⟩
    rintro _ ⟨⟩
  · rw [same]
    have silent : reported (removed.map .dropped) = [] :=
      reported_eq_nil (List.mem_map_of_mem member) unwritable
    refine ⟨_, dropped.trans (congrArg some (funext left).symm), fun _ _ => silent, ?_⟩
    intro value done
    rw [(BeliefBase.announced_ok done).1 old member] at unwritable
    cases unwritable
  · have absent : cleared.contains fact = false := by
      rw [left]
      cases old : agent.beliefs.contains fact with
      | false => rfl
      | true => simpa using present old
    have added := BeliefBase.assert_new filed absent
    have larger := (setCleared.assert added).2.2
    rw [same, BeliefBase.asserting, added]
    simp only [left] at larger
    have whole := congrArg some (funext larger).symm
    by_cases factWritable : fact.isWritable = true
    · refine ⟨_, (replay?_replacement set distinct inside present).trans whole, ?_⟩
      dsimp only
      rw [BeliefBase.announced_of_writable (List.forall_mem_singleton.mpr factWritable),
        reported_replacement factWritable writable]
      refine ⟨fun _ failed => (nomatch failed), ?_⟩
      rintro _ ⟨⟩
      exact (posts_replaced θ factWritable writable).queues
    · refine ⟨removed.map .dropped ++ [.believed fact], ?_, fun fault failed => ?_,
        fun value done => ?_⟩
      · rw [replay?_append, dropped, Option.bind_some, replay?_cons, replay?_believed]
        · exact whole
        · rw [← left, absent]
      · exact reported_eq_nil (List.mem_append_right _ List.mem_cons_self)
          (Bool.eq_false_iff.mpr factWritable)
      · simp [BeliefBase.announced, factWritable, Except.map] at done

theorem keeps_achieve (goal : Term) : Keeps Mirrors (achieve goal) := by
  intro agent set
  obtain ⟨journal, same⟩ := queues_post (.goal goal) agent
  rw [achieve, same]
  exact ⟨set, [[.goal goal]], by simp, rfl⟩

/-- Under acyclic bindings every change of belief that a task makes is mirrored. -/
theorem believing_mirrors (acyclic : θ.Acyclic) : Believing Mirrors θ where
  achieved := keeps_achieve
  added := keeps_addBelief
  removed := keeps_executeRemove acyclic
  replaced := keeps_executeReplace θ

theorem keeps_load (program : Program) : Keeps Mirrors (load program) := by
  have book := bookkeeping_mirrors
  refine book.keeps_bind ?_ fun _ => book.keeps_bind (book.keeps_forM fun fact _ => ?_) fun _ =>
    book.keeps_forM fun goal _ => keeps_achieve goal
  · intro agent set
    obtain ⟨later, same⟩ := set.addRules program.rules
    refine ⟨later, [], (List.append_nil _).symm, ?_⟩
    exact congrArg (some <| factSet ·) same.symm
  · exact book.keeps_bind (keeps_addBelief fact) fun _ => book.keeps_pure _

end Agent

end AgentSpeak
