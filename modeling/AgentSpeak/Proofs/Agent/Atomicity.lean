import AgentSpeak.Proofs.Agent.Deliberation
import AgentSpeak.Proofs.Agent.Replay

/-!
Tasks are all or nothing, but for what they write. Whatever else can make a task fail or end in a
fault comes before its first change of the beliefs, of the queue or of the printed lines. So an
intention that fails at a task does so with its frames as they were when the task began. A task that
ends in a fault because a number has too many digits, or because the output stream refuses a line, may
have changed something before.
-/

namespace AgentSpeak

/-- A fault of what is written: it has no text, or the output stream refuses it. -/
def Fault.isOfWriting : Fault → Bool
  | unwritable | unencodable _ => true
  | _ => false

namespace Agent

variable {α β : Type} {agent : Agent} {computation : AgentM α} {good : α → Prop} {fine : β → Prop}

/-- An outcome that is good, or a fault of what is written. -/
def EndsWell (good : α → Prop) : Except Fault α → Prop
  | .ok value => good value
  | .error fault => fault.isOfWriting = true

/-- A computation that ends well, whatever the agent is. -/
def Certain (good : α → Prop) (computation : AgentM α) : Prop :=
  ∀ agent, EndsWell good (computation.run.run agent).1

/-- Unless it ends well, a computation has changed nothing. -/
def AllOrNothing (good : α → Prop) (computation : AgentM α) : Prop :=
  ∀ agent, EndsWell good (computation.run.run agent).1 ∨
    Undisturbed agent (leaves computation agent)

section Composing

variable {next : α → AgentM β}

theorem certain_pure {value : α} (own : good value) : Certain good (pure value) :=
  fun _ => own

theorem Certain.bind (first : Certain good computation)
    (rest : ∀ value, good value → Certain fine (next value)) :
    Certain fine (computation >>= next) := by
  intro agent
  have start := first agent
  rw [run_bind]
  rcases outcome : computation.run.run agent with ⟨fault | value, between⟩
  · rwa [outcome] at start
  · rw [outcome] at start
    exact rest value start between

theorem certain_forM {items : List β} {each : β → AgentM PUnit}
    (one : ∀ item, Certain (fun _ => True) (each item)) :
    Certain (fun _ => True) (items.forM each) := by
  induction items with
  | nil => exact certain_pure trivial
  | cons item rest ih => exact (one item).bind fun _ _ => ih

theorem certain_post (event : Trigger) : Certain (fun _ => True) (post event) := by
  intro agent
  obtain ⟨log, ran⟩ := run_post event agent
  rw [ran]
  split
  next => exact trivial
  next => exact rfl

/-- A line is printed, and then the stream may refuse it. -/
theorem certain_print (text : String) : Certain (fun _ => True) (print text) := by
  intro agent
  show EndsWell _ ((agent.stream text).elim (.ok ()) fun reason => .error (.unencodable reason))
  cases agent.stream text with
  | none => exact trivial
  | some reason => exact rfl

theorem Certain.allOrNothing (certain : Certain good computation) :
    AllOrNothing good computation :=
  fun agent => .inl (certain agent)

theorem allOrNothing_of_keeps (quiet : Keeps Undisturbed computation) :
    AllOrNothing good computation :=
  fun agent => .inr (quiet agent)

/-- As long as nothing has changed, a computation may fail. -/
theorem AllOrNothing.after (quiet : Keeps Undisturbed computation)
    (rest : ∀ value, AllOrNothing fine (next value)) :
    AllOrNothing fine (computation >>= next) := by
  intro agent
  have start := quiet agent
  rw [leaves] at start ⊢
  rw [run_bind]
  rcases outcome : computation.run.run agent with ⟨fault | value, between⟩
  · rw [outcome] at start
    exact .inr start
  · rw [outcome] at start
    exact (rest value between).imp_right (deliberating_undisturbed.trans start)

/-- Once something has changed, a computation may only fail over what it writes. -/
theorem AllOrNothing.bind (first : AllOrNothing good computation)
    (onward : ∀ value, good value → Certain fine (next value))
    (back : ∀ value, ¬ good value → Keeps Undisturbed (next value)) :
    AllOrNothing fine (computation >>= next) := by
  intro agent
  have start := first agent
  rw [leaves] at start ⊢
  rw [run_bind]
  rcases outcome : computation.run.run agent with ⟨fault | value, between⟩
  · rwa [outcome] at start
  · rw [outcome] at start
    by_cases own : good value
    · exact .inl (onward value own between)
    · exact .inr (deliberating_undisturbed.trans (start.resolve_left own) (back value own between))

/-- A change of the beliefs that is refused is none, but if a fact that comes or goes has no text. -/
theorem allOrNothing_revise {change : BeliefBase → BeliefBase.Revision α}
    (refused : ∀ base fault, (change base).outcome = .error fault →
      fault = .unwritable ∨ (change base).base = base)
    (rest : ∀ value, Certain fine (next value)) :
    AllOrNothing fine (revise change >>= next) := by
  have revised : AllOrNothing (fun _ => True) (revise change) := by
    intro agent
    obtain ⟨log, ran⟩ := run_revise change agent
    rw [leaves, ran]
    cases outcome : (change agent.beliefs).outcome with
    | ok value => exact .inl trivial
    | error fault =>
      rcases refused agent.beliefs fault outcome with rfl | same
      · exact .inl rfl
      · rw [same]
        exact .inr ⟨rfl, rfl, rfl⟩
  exact revised.bind (fun value _ => rest value) fun _ bad => absurd trivial bad

end Composing

section Acting

variable {name : String} {arguments : List Term} {θ : Substitution}

theorem keeps_resolveAll (θ : Substitution) (terms : List Term) :
    Keeps Undisturbed (terms.mapM (resolve θ)) :=
  deliberating_undisturbed.keeps_mapM fun _ => deliberating_undisturbed.keeps_resolve _ _

theorem allOrNothing_performPrint :
    AllOrNothing (fun found => found ≠ none) (performPrint arguments θ) := by
  have quiet := deliberating_undisturbed
  refine .after (quiet.keeps_mapM fun _ => quiet.keeps_displayed _ _) fun texts => ?_
  refine ((certain_print _).bind fun _ _ => ?_).allOrNothing
  exact certain_pure (Option.some_ne_none θ)

theorem allOrNothing_performBuiltin :
    AllOrNothing (fun found => found ≠ none) (performBuiltin name arguments θ) := by
  have quiet := deliberating_undisturbed
  unfold performBuiltin
  split
  next => exact allOrNothing_performPrint
  next => exact allOrNothing_performPrint
  next => exact allOrNothing_of_keeps (quiet.keeps_pure _)
  next => exact allOrNothing_of_keeps (quiet.keeps_performMyName _ _)
  next => exact allOrNothing_of_keeps (quiet.keeps_performCount _ _)
  next => exact allOrNothing_of_keeps (quiet.keeps_performFindall _ _)
  next => exact allOrNothing_of_keeps (quiet.keeps_throw _)

/-- The call of an action of the environment is noted, which is none of the agent's own changes. -/
theorem keeps_performUser : Keeps Undisturbed (performUser name arguments θ) := by
  have quiet := deliberating_undisturbed
  refine quiet.keeps_bind quiet.keeps_get fun agent => ?_
  dsimp only
  split
  next => exact quiet.keeps_throw _
  next =>
    refine quiet.keeps_bind (keeps_resolveAll θ arguments) fun resolved => ?_
    exact quiet.keeps_bind (fun _ => ⟨rfl, rfl, rfl⟩) fun _ => quiet.keeps_ofExcept _

theorem allOrNothing_perform (kind : ActionKind) :
    AllOrNothing (fun found => found ≠ none) (perform kind name arguments θ) := by
  cases kind with
  | builtin => exact allOrNothing_performBuiltin
  | user => exact allOrNothing_of_keeps keeps_performUser

end Acting

section Believing

variable {θ : Substitution} {literal : Term}

theorem allOrNothing_addBelief (fact : Term) : AllOrNothing (fun _ => True) (addBelief fact) := by
  refine allOrNothing_revise (fun _ _ => BeliefBase.asserting_refused) fun added => ?_
  dsimp only
  split
  next => exact (certain_post _).bind fun _ _ => certain_pure trivial
  next => exact certain_pure trivial

theorem allOrNothing_executeRemove :
    AllOrNothing (fun effect => effect ≠ .failed) (executeRemove θ literal) := by
  have quiet := deliberating_undisturbed
  refine .after (quiet.keeps_resolve _ _) fun pattern => .after quiet.keeps_get fun agent => ?_
  refine allOrNothing_revise (fun _ _ => .inl ∘ BeliefBase.removing_refused) fun found => ?_
  split
  next => exact certain_pure nofun
  next => exact (certain_post _).bind fun _ _ => certain_pure nofun

theorem allOrNothing_executeReplace :
    AllOrNothing (fun effect => effect ≠ .failed) (executeReplace θ literal) := by
  have quiet := deliberating_undisturbed
  refine .after (quiet.keeps_resolve _ _) fun fact => .after quiet.keeps_get fun agent => ?_
  refine allOrNothing_revise (fun _ _ => BeliefBase.replacing_refused) fun removed => ?_
  refine (certain_forM fun _ => certain_post _).bind fun _ _ => ?_
  dsimp only
  split
  next => exact certain_pure nofun
  next => exact (certain_post _).bind fun _ _ => certain_pure nofun

end Believing

/-- Unless the frame can go on, or a text cannot be written, a task has changed nothing. -/
theorem allOrNothing_execute (θ : Substitution) (task : Task) :
    AllOrNothing (fun effect => effect ≠ .failed) (execute θ task) := by
  have quiet := deliberating_undisturbed
  cases task with
  | retest condition body fresh =>
    exact allOrNothing_of_keeps (quiet.keeps_executeTestOfLoop θ condition body fresh)
  | statement step =>
    cases step with
    | achieve goal => exact allOrNothing_of_keeps (quiet.keeps_executeAchieve θ goal)
    | achieveLater goal =>
      refine .after (quiet.keeps_resolve _ _) fun goal => Certain.allOrNothing ?_
      exact (certain_post (.goal goal)).bind fun _ _ => certain_pure nofun
    | test goal => exact allOrNothing_of_keeps (quiet.keeps_executeTest θ goal)
    | add literal =>
      refine .after (quiet.keeps_resolve _ _) fun fact => ?_
      exact (allOrNothing_addBelief fact).bind (fun _ _ => certain_pure nofun)
        fun _ bad => absurd trivial bad
    | remove literal => exact allOrNothing_executeRemove
    | replace literal => exact allOrNothing_executeReplace
    | action kind name arguments =>
      refine (allOrNothing_perform kind).bind (fun found some => ?_) fun _ _ => quiet.keeps_pure _
      obtain ⟨extended, rfl⟩ := Option.ne_none_iff_exists'.mp some
      exact certain_pure nofun
    | constraint relation left right =>
      exact allOrNothing_of_keeps
        (quiet.keeps_bind (quiet.keeps_holds _ _) fun _ => quiet.keeps_pure _)
    | branch condition positive negative =>
      refine allOrNothing_of_keeps (quiet.keeps_bind (quiet.keeps_holds _ _) fun found => ?_)
      split
      next => exact quiet.keeps_pure _
      next => exact quiet.keeps_pure _
    | loop condition body =>
      exact allOrNothing_of_keeps (quiet.keeps_executeTestOfLoop θ condition body _)

/-- How an intention goes on when a task has failed or has ended in a fault: it fails, unless the fault
is none of its own. -/
def giveUp (intention : Intention) (task : Task) : Except Fault Effect → AgentM (Bool × Intention)
  | .ok _ => failAt intention task "statement failed"
  | .error fault =>
      if fault.failsIntention then failAt intention task fault.message else throw fault

variable {intention : Intention} {frame : Frame} {below : List Frame} {task : Task}
  {tasks : List Task} {outcome : Except Fault Effect} {after : Agent}

theorem run_attempt_ok {θ : Substitution} {effect : Effect}
    (ran : (execute θ task).run.run agent = (.ok effect, after)) :
    (attempt θ task).run.run agent = (.ok (.ok effect), after) := by
  rw [attempt, run_tryCatch, run_bind, ran]
  rfl

theorem run_attempt_error {θ : Substitution} {fault : Fault}
    (ran : (execute θ task).run.run agent = (.error fault, after)) :
    (attempt θ task).run.run agent =
      if fault.failsIntention then (.ok (.error fault.message), after)
      else (.error fault, after) := by
  rw [attempt, run_tryCatch, run_bind, ran]
  dsimp only
  split <;> rfl

/-- A task that fails or ends in a fault leaves the facts, the queue and the printed lines alone, unless
it is a fault of what is written, and its intention fails with the frames that it had. -/
theorem step_allOrNothing (frames : intention.frames = frame :: below)
    (next : frame.tasks = task :: tasks) (within : intention.steps + 1 ≤ agent.limits.maxSteps)
    (ran : (execute frame.bindings task).run.run agent = (outcome, after))
    (failed : ∀ effect, outcome = .ok effect → effect = .failed) :
    (Undisturbed agent after ∨ ∃ fault, outcome = .error fault ∧ fault.isOfWriting = true) ∧
      (step intention).run.run agent =
        (giveUp { intention with steps := intention.steps + 1 } task outcome).run.run after := by
  constructor
  · have whole := allOrNothing_execute frame.bindings task agent
    rw [leaves, ran] at whole
    rcases whole with well | same
    · cases outcome with
      | ok effect => exact absurd (failed effect rfl) well
      | error fault => exact .inr ⟨fault, rfl, well⟩
    · exact .inl same
  · have few : ¬ ((intention.steps + 1 : Nat) : Int) > agent.limits.maxSteps := by omega
    have looked : (get : AgentM Agent).run.run agent = (.ok agent, agent) := rfl
    rw [step, frames]
    dsimp only
    rw [next]
    dsimp only
    rw [run_bind, looked]
    dsimp only
    rw [if_neg few, run_bind]
    cases outcome with
    | ok effect =>
      cases failed effect rfl
      rw [run_attempt_ok ran]
      rfl
    | error fault =>
      rw [run_attempt_error ran, giveUp]
      cases fault.failsIntention <;> rfl

/-- A belief is to be replaced by one that is not ground. It is still there when the intention fails,
and nobody hears of it. -/
theorem step_allOrNothing_replacement :
    let old : Term := .compound "p" [.number (.int 1)]
    let new : Term := .compound "p" [.var ⟨"X", []⟩]
    let agent := leaves (addBelief old) (idle "a" {} [] .empty 0)
    let frame := Frame.mk ⟨.goal (.atom "g"), .literal .truth, [], none⟩ .empty (.atom "g")
      [.statement (.replace new)] none
    ∃ fault after, (execute .empty (.statement (.replace new))).run.run agent =
        (.error fault, after) ∧
      after.beliefs.facts = [old] ∧ after.events = [.believed old] ∧ after.transcript = [] ∧
        (step ⟨1, [frame], 0⟩).run.run agent =
          (failAt ⟨1, [frame], 1⟩ (.statement (.replace new)) fault.message).run.run after := by
  intro old new agent frame
  have ran : (execute .empty (.statement (.replace new))).run.run agent =
    (.error (.openBelief new), agent) := rfl
  have frames : (⟨1, [frame], 0⟩ : Intention).frames = [frame] := rfl
  obtain ⟨same, stepped⟩ := step_allOrNothing frames rfl (by decide) ran fun _ done => nomatch done
  have same : Undisturbed agent agent := same.resolve_right fun ⟨_, failed, own⟩ => by
    cases failed
    cases own
  exact ⟨_, _, ran, same.facts, same.events, same.transcript, stepped⟩

/-- A number with 5001 digits is believed, and the addition of it fails. -/
theorem execute_unwritable :
    let digits (n : Int) : Term := .number (.int n)
    let addition : Task :=
      .statement (.add (.compound "n" [.compound "**" [digits 10, digits 5000]]))
    let agent := idle "a" {} [] .empty 0
    let ran := (execute .empty addition).run.run agent
    ran.1.toOption.isNone = true ∧ agent.beliefs.size = 0 ∧ ran.2.beliefs.size = 1 := by
  decide +kernel

/-- A line that the output stream refuses is printed, and the action fails. -/
theorem execute_unencodable :
    let printing : Task := .statement (.action .builtin "print" [.string "x"])
    let agent := { idle "a" {} [] .empty 0 with stream := fun _ => some "surrogates not allowed" }
    let ran := (execute .empty printing).run.run agent
    ran.1.toOption.isNone = true ∧ agent.transcript = [] ∧ ran.2.transcript = ["x"] := by
  decide +kernel

end Agent

end AgentSpeak
