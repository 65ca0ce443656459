import AgentSpeak.Proofs.Agent.Keeping
import AgentSpeak.Proofs.Parallel.Execution

/-!
The queue of events. Whatever an agent does, it changes its queue by posting events only; a run takes
them from the front, one after the other. So the events that were ever posted are those that were
handled, in order, and then those that wait: no event is lost, none is handled twice, and none
overtakes another.

A run in two parts is the same as one run.
-/

namespace AgentSpeak

namespace Agent

/-- One agent comes from another by changes of which each posts an event, which has a text, or does
not touch the queue; and the events that were posted, in order. -/
inductive Posting : (before : Agent) → (posted : List Trigger) → (after : Agent) → Prop where
  | untouched (same : after.events = before.events) : Posting before [] after
  | posted (event : Trigger) (writable : event.isWritable = true) :
      Posting before [event] (leaves (post event) before)
  | further (first : Posting before posted between) (second : Posting between more after) :
      Posting before (posted ++ more) after

/-- An agent with the events that were in its queue at some moment or were posted since, and with
those that it has handled since. Between events the agent is told and asked things. -/
inductive Recording : (posted handled : List Trigger) → Agent → Prop where
  | started (agent : Agent) : Recording agent.events [] agent
  /-- From now on the environment answers otherwise. -/
  | varied (before : Recording posted handled agent) (actions : ActionTable) :
      Recording posted handled { agent with actions }
  /-- Other agents begin intentions, or the journal is written or read out. -/
  | noted (before : Recording posted handled agent) (begun : Nat) (journal : Journal) :
      Recording posted handled { agent with intentions := begun, journal }
  | asked (before : Recording posted handled agent) (request : Request)
      (posting : Posting agent more (leaves request.perform agent)) :
      Recording (posted ++ more) handled (leaves request.perform agent)
  /-- The next event is taken from the queue and handled, successfully or not. -/
  | turned (before : Recording posted handled agent) (queued : agent.events = event :: rest)
      (posting : Posting { agent with events := rest } more
        (leaves (handle event) { agent with events := rest })) :
      Recording (posted ++ more) (handled ++ [event])
        (leaves (handle event) { agent with events := rest })

variable {α : Type} {agent before after : Agent} {posted more handled : List Trigger}

/-- What was posted stands behind what waited before, in order. -/
theorem Posting.events (posting : Posting before posted after) :
    after.events = before.events ++ posted := by
  induction posting with
  | untouched same => rw [same, List.append_nil]
  | @posted before event writable =>
    obtain ⟨log, ran⟩ := run_post event before
    rw [leaves, ran, if_pos writable]
  | further first second ihFirst ihSecond => rw [ihSecond, ihFirst, List.append_assoc]

/-- An agent does nothing to its queue but post events. -/
theorem encompassing_posting : Encompassing fun before after => ∃ posted,
    Posting before posted after where
  refl _ := ⟨[], .untouched rfl⟩
  trans := fun ⟨_, first⟩ ⟨_, second⟩ => ⟨_, first.further second⟩
  noted _ _ _ := ⟨[], .untouched rfl⟩
  renamed _ _ := ⟨[], .untouched rfl⟩
  searched _ _ := ⟨[], .untouched rfl⟩
  believed _ _ := ⟨[], .untouched rfl⟩
  posted event agent := by
    by_cases writable : event.isWritable = true
    · exact ⟨[event], .posted event writable⟩
    · obtain ⟨log, ran⟩ := run_post event agent
      exact ⟨[], .untouched (by rw [leaves, ran, if_neg writable])⟩

theorem Recording.events (recording : Recording posted handled agent) :
    posted = handled ++ agent.events := by
  induction recording with
  | started agent => rfl
  | varied before actions ih => exact ih
  | noted before begun journal ih => exact ih
  | asked before request posting ih => rw [ih, posting.events, List.append_assoc]
  | turned before queued posting ih =>
    rw [ih, queued, posting.events]
    simp

theorem runEvents_nil (limit count : Nat) (queued : agent.events = []) :
    (runEvents limit count).run.run agent = (.ok count, agent) := by
  cases limit with
  | zero => rfl
  | succ limit =>
    have looked : (get : AgentM Agent).run.run agent = (.ok agent, agent) := rfl
    rw [Agent.runEvents, run_bind, looked]
    dsimp only
    rw [queued]
    rfl

theorem runEvents_cons (limit count : Nat) {event : Trigger} {rest : List Trigger}
    (queued : agent.events = event :: rest) :
    (runEvents (limit + 1) count).run.run agent =
      (handle event >>= fun _ => runEvents limit (count + 1)).run.run
        { agent with events := rest } := by
  have looked : (get : AgentM Agent).run.run agent = (.ok agent, agent) := rfl
  rw [Agent.runEvents, run_bind, looked]
  dsimp only
  rw [queued]
  rfl

/-- What a run counts is what it takes from the queue. -/
theorem Recording.runEvents {limit count total : Nat} (recording : Recording posted handled agent)
    (ran : (runEvents limit count).run.run agent = (.ok total, after)) :
    ∃ events more, total = count + events.length ∧
      Recording (posted ++ more) (handled ++ events) after := by
  induction limit generalizing posted handled agent count with
  | zero =>
    cases ran
    exact ⟨[], [], rfl, by rwa [List.append_nil, List.append_nil]⟩
  | succ limit ih =>
    cases queued : agent.events with
    | nil =>
      cases (runEvents_nil _ _ queued).symm.trans ran
      exact ⟨[], [], rfl, by rwa [List.append_nil, List.append_nil]⟩
    | cons event rest =>
      rw [runEvents_cons _ _ queued] at ran
      obtain ⟨done, middle, turned, ran⟩ := exists_of_run_bind ran
      obtain ⟨first, posting⟩ :=
        encompassing_posting.keeps_handle event { agent with events := rest }
      have next := recording.turned queued posting
      rw [leaves, turned] at next
      obtain ⟨events, others, counted, later⟩ := ih next ran
      refine ⟨event :: events, first ++ others, ?_, ?_⟩
      · rw [counted, List.length_cons]
        omega
      · rwa [List.append_assoc, List.append_assoc] at later

/-- Handling more events is handling some and then the others. -/
theorem runEvents_add (m n count : Nat) (agent : Agent) :
    (runEvents (m + n) count).run.run agent =
      (runEvents m count >>= runEvents n).run.run agent := by
  induction m generalizing count agent with
  | zero =>
    rw [Nat.zero_add]
    rfl
  | succ m ih =>
    rw [Nat.succ_add, run_bind]
    cases queued : agent.events with
    | nil =>
      rw [runEvents_nil _ _ queued, runEvents_nil _ _ queued]
      exact (runEvents_nil _ _ queued).symm
    | cons event rest =>
      rw [runEvents_cons _ _ queued, runEvents_cons _ _ queued, run_bind, run_bind]
      rcases (handle event).run.run { agent with events := rest } with ⟨fault | done, next⟩
      · rfl
      · exact (ih (count + 1) next).trans (run_bind _ _ _)

/-- The count of a run goes on from where it begins. -/
theorem runEvents_from (limit before count : Nat) (agent : Agent) :
    (runEvents limit (before + count)).run.run agent =
      (((runEvents limit count).run.run agent).1.map (before + ·),
        ((runEvents limit count).run.run agent).2) := by
  induction limit generalizing count agent with
  | zero => rfl
  | succ limit ih =>
    cases queued : agent.events with
    | nil =>
      rw [runEvents_nil _ _ queued, runEvents_nil _ _ queued]
      rfl
    | cons event rest =>
      rw [runEvents_cons _ _ queued, runEvents_cons _ _ queued, run_bind, run_bind]
      rcases (handle event).run.run { agent with events := rest } with ⟨fault | done, next⟩
      · rfl
      · exact ih (count + 1) next

/-- How many events a run may handle. -/
def allowed (maxCycles : Option Int) : Nat :=
  maxCycles.elim noLimit Int.toNat

theorem allowed_natCast (n : Nat) : allowed (some n) = n := rfl

/-- A run is handling events and a report about it. -/
theorem run_eq (maxCycles : Option Int) (agent : Agent) : ∃ log,
    (run maxCycles).run.run agent =
      (((runEvents (allowed maxCycles) 0).run.run agent).1,
        ((runEvents (allowed maxCycles) 0).run.run agent).2.beside
          ((runEvents (allowed maxCycles) 0).run.run agent).2.intentions log) := by
  have unfolded : run maxCycles = (do
      let handled ← runEvents (allowed maxCycles) 0
      reportNamed .info s!"handled {handled} events, {(← get).events.length} pending"
      return handled) := by
    cases maxCycles <;> rfl
  rw [unfolded, run_bind]
  rcases (runEvents (allowed maxCycles) 0).run.run agent with ⟨fault | count, after⟩ <;>
    exact ⟨_, rfl⟩

/-- Two runs, and how many events they handle together. -/
def runTwice (m n : Nat) : AgentM Nat := do
  let one ← run (some m)
  let two ← run (some n)
  return one + two

/-- Two runs have the outcome of a longer one, and leave the same but for reports. -/
theorem runTwice_eq (m n : Nat) (agent : Agent) : ∃ begun log,
    (runTwice m n).run.run agent = (((run (some (m + n : Nat))).run.run agent).1,
      ((run (some (m + n : Nat))).run.run agent).2.beside begun log) := by
  obtain ⟨wholeLog, whole⟩ := run_eq (some (m + n : Nat)) agent
  obtain ⟨oneLog, one⟩ := run_eq (some m) agent
  rw [allowed_natCast] at whole one
  rw [whole, runTwice, run_bind, one, runEvents_add, run_bind]
  rcases (runEvents m 0).run.run agent with ⟨fault | count, middle⟩
  · exact ⟨_, _, rfl⟩
  · dsimp only
    obtain ⟨twoLog, two⟩ := run_eq (some n) (middle.beside middle.intentions oneLog)
    obtain ⟨begun, log, second⟩ := (indifferent_runEvents n 0).run middle middle.intentions oneLog
    have counted := runEvents_from n count 0 middle
    rw [allowed_natCast] at two
    rw [Nat.add_zero] at counted
    rw [run_bind, two, second, counted]
    rcases (runEvents n 0).run.run middle with ⟨fault | more, last⟩ <;> exact ⟨_, _, rfl⟩

/-- All events that were ever posted are those that were handled, in order, and then those in the
queue; and so it goes on, whatever the agent is told and asked, and with runs, which handle as many
events as they count. Two runs one after the other end like one run for as many events, with the
same beliefs, queue and output. -/
theorem Recording.conserved (recording : Recording posted handled agent) :
    posted = handled ++ agent.events ∧
      (∀ request : Request, ∃ more,
        Recording (posted ++ more) handled (leaves request.perform agent)) ∧
      (∀ maxCycles count after, (run maxCycles).run.run agent = (.ok count, after) →
        ∃ events more, events.length = count ∧
          Recording (posted ++ more) (handled ++ events) after ∧
          posted ++ more = handled ++ events ++ after.events) ∧
      ∀ m n : Nat,
        let parts := (runTwice m n).run.run agent
        let whole := (run (some (m + n : Nat))).run.run agent
        parts.1 = whole.1 ∧ parts.2.beliefs = whole.2.beliefs ∧
          parts.2.events = whole.2.events ∧ parts.2.transcript = whole.2.transcript := by
  refine ⟨recording.events, fun request => ?_, fun maxCycles count after ran => ?_, fun m n => ?_⟩
  · obtain ⟨more, posting⟩ := encompassing_posting.keeps_perform_request request agent
    exact ⟨more, recording.asked request posting⟩
  · obtain ⟨log, same⟩ := run_eq maxCycles agent
    rw [same] at ran
    rcases turned : (Agent.runEvents (allowed maxCycles) 0).run.run agent with
      ⟨fault | total, middle⟩
    · rw [turned] at ran
      cases ran
    · rw [turned] at ran
      cases ran
      obtain ⟨events, more, counted, later⟩ := recording.runEvents turned
      have noted := later.noted middle.intentions { middle.journal with log }
      exact ⟨events, more, by omega, noted, noted.events⟩
  · obtain ⟨begun, log, same⟩ := runTwice_eq m n agent
    dsimp only
    rw [same]
    exact ⟨rfl, rfl, rfl, rfl⟩

/-- While `+!g` is handled, which waits in front of `+!k`, its plan posts `+!h` and `+x`. They are
handled behind `+!k`, be it in the same run or in a second one. -/
theorem Recording.conserved_delegating :
    let goal := fun name => Trigger.goal (.atom name)
    let plan : Plan :=
      ⟨goal "g", .literal .truth, [.achieveLater (.atom "h"), .add (.atom "x")], none⟩
    let agent := { idle "a" {} [plan] .empty 0 with events := [goal "g", goal "k"] }
    let after := leaves (run (some 1)) agent
    (∃ more, Recording ([goal "g", goal "k"] ++ more) [goal "g"] after) ∧
      after.events = [goal "k", goal "h", .believed (.atom "x")] ∧
      ((runTwice 1 3).run.run agent).1 = .ok 4 ∧
      ((run (some 4)).run.run agent).2.events = ((runTwice 1 3).run.run agent).2.events := by
  intro goal plan agent after
  obtain ⟨-, -, runs, parts⟩ := Recording.conserved (.started agent)
  have ran : (run (some 1)).run.run agent = (.ok 1, after) := Prod.ext rfl rfl
  obtain ⟨events, more, length, later, conserved⟩ := runs (some 1) 1 after ran
  obtain ⟨event, rfl⟩ := List.length_eq_one_iff.mp length
  obtain ⟨counts, -, queues, -⟩ := parts 1 3
  cases (List.cons.inj conserved).1
  exact ⟨⟨more, later⟩, rfl, rfl, queues.symm⟩

end Agent

end AgentSpeak
