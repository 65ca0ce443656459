import AgentSpeak.Proofs.Agent.Keeping

/-!
Intentions end. A statement that is executed uses up one of the steps that the limits allow and can
put one frame on the stack; every other step takes something off the stack, where a frame with a goal
counts twice, because a plan for its failure can take its place once.
-/

namespace AgentSpeak

/-- A frame that pursues a goal ends at most twice: when it fails, and when the plan for its failure
does. -/
def Frame.weight (frame : Frame) : Nat :=
  if frame.pursuesGoal then 2 else 1

namespace Frame

theorem weight_pos (frame : Frame) : 0 < frame.weight := by
  unfold weight
  split <;> omega

theorem weight_le_two (frame : Frame) : frame.weight ≤ 2 := by
  unfold weight
  split <;> omega

theorem weight_congr {frame other : Frame} (same : frame.plan = other.plan) :
    frame.weight = other.weight := by
  rw [weight, weight, pursuesGoal, pursuesGoal, same]

end Frame

namespace Intention

/-- The weight of the frames of an intention. -/
def weight : List Frame → Nat
  | [] => 0
  | frame :: below => frame.weight + weight below

variable {frame : Frame} {frames : List Frame} {intention : Intention} {limits : Limits}

@[simp] theorem weight_nil : weight [] = 0 := rfl

@[simp] theorem weight_cons : weight (frame :: frames) = frame.weight + weight frames := rfl

/-- How many statements the limits still allow an intention to begin. -/
def remaining (limits : Limits) (intention : Intention) : Nat :=
  limits.maxSteps.toNat - intention.steps

/-- The most steps that an intention can still take. -/
def potential (limits : Limits) (intention : Intention) : Nat :=
  3 * intention.remaining limits + weight intention.frames

/-- Whether the next step of an intention executes a statement: its first frame has one left, and the
limit is not reached. -/
def executes (limits : Limits) (intention : Intention) : Bool :=
  match intention.frames with
  | [] => false
  | frame :: _ => !frame.tasks.isEmpty && decide ((intention.steps : Int) < limits.maxSteps)

/-- How many statements the next step of an intention executes. -/
def executed (limits : Limits) (intention : Intention) : Nat :=
  (intention.executes limits).toNat

theorem executed_le_remaining (limits : Limits) (intention : Intention) :
    intention.executed limits ≤ intention.remaining limits := by
  unfold executed remaining executes
  split
  next => exact Nat.zero_le _
  next =>
    by_cases allowed : (intention.steps : Int) < limits.maxSteps
    · exact (Bool.toNat_le _).trans (by omega)
    · simp [allowed]

theorem potential_pos (limits : Limits) (more : intention.isDone = false) :
    0 < intention.potential limits := by
  unfold potential
  unfold isDone at more
  cases shape : intention.frames with
  | nil =>
    rw [shape] at more
    cases more
  | cons frame below =>
    have positive := frame.weight_pos
    rw [weight_cons]
    omega

end Intention

namespace Agent

/-- The steps of an intention, one after the other and as many as it takes, until it is done, is
dropped or a step fails: how many they are, how many of them execute a statement, and what comes out
of them. -/
inductive Runs : Agent → Intention → Nat → Nat → Except Fault Bool → Agent → Prop where
  | done (ended : intention.isDone = true) : Runs agent intention 0 0 (.ok true) agent
  | dropped (more : intention.isDone = false)
      (ran : (step intention).run.run agent = (.ok (false, next), after)) :
      Runs agent intention 1 (intention.executed agent.limits) (.ok false) after
  | failed (more : intention.isDone = false)
      (ran : (step intention).run.run agent = (.error fault, after)) :
      Runs agent intention 1 (intention.executed agent.limits) (.error fault) after
  | stepped (more : intention.isDone = false)
      (ran : (step intention).run.run agent = (.ok (true, next), middle))
      (rest : Runs middle next steps executed outcome after) :
      Runs agent intention (steps + 1) (intention.executed agent.limits + executed) outcome after

variable {agent after : Agent} {limits : Limits} {intention next : Intention} {frame : Frame}
  {frames later : List Frame} {trigger : Trigger} {callerGoal : Option Term}

theorem mem_of_firstApplicable {literal : Term} {plans : List Plan} {plan : Plan}
    {bindings : Substitution} (ran : (firstApplicable literal plans).run.run agent =
      (.ok (some (plan, bindings)), after)) : plan ∈ plans := by
  induction plans generalizing agent with
  | nil => cases ran
  | cons first rest ih =>
    obtain ⟨_, _, -, ran⟩ := exists_of_run_bind ran
    dsimp only at ran
    split at ran
    next => exact List.mem_cons_of_mem _ (ih ran)
    next =>
      obtain ⟨found, _, -, ran⟩ := exists_of_run_bind ran
      cases found with
      | none => exact List.mem_cons_of_mem _ (ih ran)
      | some bindings =>
        cases ran
        exact List.mem_cons_self

/-- A frame runs a plan for the event that it was chosen for. -/
theorem selectPlan_trigger (ran : (selectPlan trigger callerGoal).run.run agent =
      (.ok (some frame), after)) :
    frame.plan.trigger.change = trigger.change ∧
      frame.plan.trigger.subject = trigger.subject := by
  obtain ⟨n, _, -, ran⟩ := exists_of_run_bind ran
  obtain ⟨_, between, same, ran⟩ := exists_of_run_bind ran
  obtain ⟨found, _, chosen, ran⟩ := exists_of_run_bind ran
  cases found with
  | none => cases ran
  | some choice =>
    obtain ⟨_, _, -, ran⟩ := exists_of_run_bind ran
    obtain ⟨_, _, -, ran⟩ := exists_of_run_bind ran
    cases ran
    have relevant := (List.mem_filter.mp (mem_of_firstApplicable chosen)).2
    simp only [Bool.and_eq_true, beq_iff_eq] at relevant
    exact relevant.1

/-- A plan for the failure of a goal weighs less than the frame with the goal. -/
theorem weight_handler {literal : Term}
    (ran : (selectPlan (.failure literal) callerGoal).run.run agent = (.ok (some frame), after)) :
    frame.weight = 1 := by
  have change : frame.plan.trigger.change = .deletion := (selectPlan_trigger ran).1
  simp [Frame.weight, Frame.pursuesGoal, change]

/-- Whoever handles a failure, the stack weighs less than before. -/
theorem weight_unwind (ran : (unwind frames).run.run agent = (.ok (some later), after)) :
    Intention.weight later < Intention.weight frames := by
  induction frames generalizing agent with
  | nil => cases ran
  | cons frame below ih =>
    have positive := frame.weight_pos
    rw [Intention.weight_cons]
    unfold unwind at ran
    split at ran
    next pursues =>
      obtain ⟨found, _, chosen, ran⟩ := exists_of_run_bind ran
      cases found with
      | none =>
        have lighter := ih ran
        omega
      | some handler =>
        cases ran
        have own := weight_handler chosen
        have two : frame.weight = 2 := if_pos pursues
        rw [Intention.weight_cons]
        omega
    next =>
      have lighter := ih ran
      omega

/-- An intention that goes on after a failure has not begun another statement, and its stack weighs
less. -/
theorem weight_fail {place reason : String}
    (ran : (fail intention place reason).run.run agent = (.ok (true, next), after)) :
    next.steps = intention.steps ∧
      Intention.weight next.frames < Intention.weight intention.frames := by
  obtain ⟨_, _, -, ran⟩ := exists_of_run_bind ran
  obtain ⟨found, _, handled, ran⟩ := exists_of_run_bind ran
  cases found with
  | none =>
    obtain ⟨_, _, -, ran⟩ := exists_of_run_bind ran
    cases ran
  | some later =>
    cases ran
    exact ⟨rfl, weight_unwind handled⟩

theorem weight_failAt {task : Task} {reason : String}
    (ran : (failAt intention task reason).run.run agent = (.ok (true, next), after)) :
    next.steps = intention.steps ∧
      Intention.weight next.frames < Intention.weight intention.frames := by
  obtain ⟨_, _, -, ran⟩ := exists_of_run_bind ran
  exact weight_fail ran

/-- The end of a frame takes its weight off the stack. -/
theorem weight_complete {below : List Frame}
    (ran : (complete intention frame below).run.run agent = (.ok (true, next), after)) :
    next.steps = intention.steps ∧
      Intention.weight next.frames < Intention.weight (frame :: below) := by
  have positive := frame.weight_pos
  rw [Intention.weight_cons]
  unfold complete at ran
  split at ran
  next goal caller others waits =>
    obtain ⟨n, _, -, ran⟩ := exists_of_run_bind ran
    obtain ⟨_, between, -, ran⟩ := exists_of_run_bind ran
    dsimp only at ran
    split at ran
    next bindings unified =>
      cases ran
      have kept : Frame.weight { caller with bindings } = caller.weight :=
        Frame.weight_congr rfl
      refine ⟨rfl, ?_⟩
      simp only [Intention.withFrames, Intention.weight_cons, kept]
      omega
    next =>
      obtain ⟨_, _, -, ran⟩ := exists_of_run_bind ran
      obtain ⟨same, lighter⟩ := weight_fail ran
      simp only [Intention.withFrames] at same lighter
      exact ⟨same, by omega⟩
  next =>
    cases ran
    exact ⟨rfl, by simp only [Intention.withFrames]; omega⟩

/-- A step that executes no statement. -/
inductive Idles (agent : Agent) (intention : Intention) : Prop where
  /-- It ends the first frame. -/
  | completes (frame : Frame) (below : List Frame) (frames : intention.frames = frame :: below)
      (same : (step intention).run.run agent = (complete intention frame below).run.run agent)
  /-- It lets the intention fail because the limit is reached. -/
  | exceeds (task : Task) (reason : String) (same : (step intention).run.run agent =
      (failAt { intention with steps := intention.steps + 1 } task reason).run.run agent)
  /-- The limit is reached and has no text. -/
  | refused (same : (step intention).run.run agent = (.error .unwritable, agent))

theorem step_of_not_executes (more : intention.isDone = false)
    (idle : intention.executes agent.limits = false) : Idles agent intention := by
  obtain ⟨id, frames, steps⟩ := intention
  cases frames with
  | nil => cases more
  | cons frame below =>
    cases left : frame.tasks with
    | nil => exact .completes frame below rfl (by simp only [step, left])
    | cons task tasks =>
      have reached : ((steps + 1 : Nat) : Int) > agent.limits.maxSteps := by
        simp [Intention.executes, left] at idle
        omega
      have looked : (get : AgentM Agent).run.run agent = (.ok agent, agent) := rfl
      have stepped : (step ⟨id, frame :: below, steps⟩).run.run agent =
          (written (Number.int agent.limits.maxSteps).isWritable >>= fun _ =>
            failAt ⟨id, frame :: below, steps + 1⟩ task
              s!"more than {agent.limits.maxSteps} steps").run.run agent := by
        simp only [step, left, run_bind, looked, if_pos reached]
      rw [run_bind] at stepped
      cases writable : (Number.int agent.limits.maxSteps).isWritable with
      | true =>
        rw [writable] at stepped
        exact .exceeds task _ stepped
      | false =>
        rw [writable] at stepped
        exact .refused stepped

/-- A step that executes a statement counts it, and puts one frame on the stack at most. -/
theorem weight_executes (executes : intention.executes agent.limits = true)
    (ran : (step intention).run.run agent = (.ok (true, next), after)) :
    next.steps = intention.steps + 1 ∧
      Intention.weight next.frames ≤ Intention.weight intention.frames + 2 := by
  unfold step at ran
  split at ran
  next empty => simp [Intention.executes, empty] at executes
  next frame below shape =>
    split at ran
    next ended => simp [Intention.executes, shape, ended] at executes
    next task tasks left =>
      have allowed : ¬ ((intention.steps + 1 : Nat) : Int) > agent.limits.maxSteps := by
        simp [Intention.executes, shape, left] at executes
        omega
      obtain ⟨_, _, ⟨⟩, ran⟩ := exists_of_run_bind ran
      dsimp only at ran
      rw [if_neg allowed] at ran
      obtain ⟨result, _, -, ran⟩ := exists_of_run_bind ran
      have failing {agent : Agent} {reason : String}
          (ran : (failAt { intention with steps := intention.steps + 1 } task reason).run.run
            agent = (.ok (true, next), after)) : next.steps = intention.steps + 1 ∧
          Intention.weight next.frames ≤ Intention.weight intention.frames + 2 := by
        obtain ⟨same, lighter⟩ := weight_failAt ran
        dsimp only at same lighter
        exact ⟨same, by omega⟩
      split at ran
      next => exact failing ran
      next => exact failing ran
      next bindings inserted =>
        cases ran
        have kept : Frame.weight { frame with bindings, tasks := inserted ++ tasks } =
          frame.weight := Frame.weight_congr rfl
        refine ⟨rfl, ?_⟩
        rw [shape]
        simp only [Intention.withFrames, Intention.weight_cons, kept]
        omega
      next callee =>
        cases ran
        have kept : Frame.weight { frame with tasks } = frame.weight := Frame.weight_congr rfl
        have light := callee.weight_le_two
        refine ⟨rfl, ?_⟩
        rw [shape]
        simp only [Intention.withFrames, Intention.weight_cons, kept]
        omega

/-- Every step that an intention goes on after lowers its potential, and those that execute a
statement use up one of those that remain. -/
theorem potential_step (more : intention.isDone = false)
    (ran : (step intention).run.run agent = (.ok (true, next), after)) :
    next.potential agent.limits < intention.potential agent.limits ∧
      intention.executed agent.limits + next.remaining agent.limits ≤
        intention.remaining agent.limits := by
  unfold Intention.potential
  cases executes : intention.executes agent.limits with
  | true =>
    obtain ⟨counted, heavier⟩ := weight_executes executes ran
    have one : intention.executed agent.limits = 1 := by simp [Intention.executed, executes]
    have allowed := Intention.executed_le_remaining agent.limits intention
    unfold Intention.remaining at allowed ⊢
    omega
  | false =>
    have nothing : intention.executed agent.limits = 0 := by simp [Intention.executed, executes]
    unfold Intention.remaining
    cases step_of_not_executes more executes with
    | completes frame below shape same =>
      obtain ⟨kept, lighter⟩ := weight_complete (same.symm.trans ran)
      rw [← shape] at lighter
      omega
    | exceeds task reason same =>
      obtain ⟨counted, lighter⟩ := weight_failAt (same.symm.trans ran)
      simp only at counted lighter
      omega
    | refused same => cases same.symm.trans ran

variable {steps executed : Nat} {outcome : Except Fault Bool}

/-- An intention ends within its potential. -/
theorem exists_runs (agent : Agent) (intention : Intention) :
    ∃ steps executed outcome after, Runs agent intention steps executed outcome after ∧
      steps ≤ intention.potential agent.limits ∧
        executed ≤ intention.remaining agent.limits := by
  induction bound : intention.potential agent.limits using Nat.strongRecOn
    generalizing agent intention with
  | ind bound ih =>
    subst bound
    cases more : intention.isDone with
    | true => exact ⟨0, 0, _, _, .done more, Nat.zero_le _, Nat.zero_le _⟩
    | false =>
      have positive := Intention.potential_pos agent.limits more
      have allowed := Intention.executed_le_remaining agent.limits intention
      rcases ran : (step intention).run.run agent with ⟨fault | ⟨_ | _, next⟩, middle⟩
      · exact ⟨1, _, _, _, .failed more ran, positive, allowed⟩
      · exact ⟨1, _, _, _, .dropped more ran, positive, allowed⟩
      · obtain ⟨lower, used⟩ := potential_step more ran
        have same := (sameSetup_step ran).limits
        obtain ⟨steps, executed, outcome, after, runs, few, begun⟩ :=
          ih _ (same ▸ lower) middle next rfl
        rw [same] at few begun
        exact ⟨steps + 1, _, outcome, after, .stepped more ran runs, by omega, by omega⟩

/-- There is only one way in which an intention can run. -/
theorem Runs.unique {steps' executed' : Nat} {outcome' : Except Fault Bool} {after' : Agent}
    (runs : Runs agent intention steps executed outcome after)
    (other : Runs agent intention steps' executed' outcome' after') :
    steps = steps' ∧ executed = executed' ∧ outcome = outcome' ∧ after = after' := by
  induction runs generalizing steps' executed' outcome' after' with
  | done ended =>
    cases other with
    | done => exact ⟨rfl, rfl, rfl, rfl⟩
    | dropped more | failed more | stepped more => simp [ended] at more
  | dropped more ran =>
    cases other with
    | done ended => simp [ended] at more
    | dropped _ ran' =>
      cases ran.symm.trans ran'
      exact ⟨rfl, rfl, rfl, rfl⟩
    | failed _ ran' | stepped _ ran' => cases ran.symm.trans ran'
  | failed more ran =>
    cases other with
    | done ended => simp [ended] at more
    | failed _ ran' =>
      cases ran.symm.trans ran'
      exact ⟨rfl, rfl, rfl, rfl⟩
    | dropped _ ran' | stepped _ ran' => cases ran.symm.trans ran'
  | stepped more ran rest ih =>
    cases other with
    | done ended => simp [ended] at more
    | dropped _ ran' | failed _ ran' => cases ran.symm.trans ran'
    | stepped _ ran' rest' =>
      cases ran.symm.trans ran'
      obtain ⟨rfl, rfl, rfl, rfl⟩ := ih rest'
      exact ⟨rfl, rfl, rfl, rfl⟩

/-- Running for as many steps as an intention takes is running it to its end. -/
theorem Runs.runFor (runs : Runs agent intention steps executed outcome after) {fuel : Nat}
    (enough : steps ≤ fuel) : (runFor fuel intention).run.run agent = (outcome, after) := by
  induction runs generalizing fuel with
  | done ended =>
    cases fuel with
    | zero =>
      show (Except.ok _, _) = _
      rw [ended]
    | succ fuel =>
      rw [Agent.runFor, if_pos ended]
      rfl
  | dropped more ran =>
    obtain ⟨fuel, rfl⟩ := Nat.exists_eq_add_of_lt enough
    rw [Agent.runFor, if_neg (by simp [more]), run_bind, ran]
    rfl
  | failed more ran =>
    obtain ⟨fuel, rfl⟩ := Nat.exists_eq_add_of_lt enough
    rw [Agent.runFor, if_neg (by simp [more]), run_bind, ran]
  | stepped more ran rest ih =>
    cases fuel with
    | zero => omega
    | succ fuel =>
      rw [Agent.runFor, if_neg (by simp [more]), run_bind, ran]
      exact ih (Nat.le_of_succ_le_succ enough)

/-- An event with a plan for it is handled by one run of an intention, which takes three steps for
each statement that the limits allow and two more at most, and executes no more statements than
these. The other steps execute none: they end a frame or fail at the limit. -/
theorem handle_ends {middle : Agent}
    (chosen : (selectPlan trigger none).run.run agent = (.ok (some frame), middle)) :
    ∃ intention started steps executed outcome after,
      (begin frame).run.run middle = (.ok intention, started) ∧
        Runs started intention steps executed outcome after ∧
        (runIntention intention).run.run started = (outcome, after) ∧
        (handle trigger).run.run agent = (outcome, after) ∧
        steps ≤ 3 * agent.limits.maxSteps.toNat + 2 ∧
        executed ≤ agent.limits.maxSteps.toNat ∧
        ∀ (state : Agent) (current : Intention), current.isDone = false →
          current.executed state.limits = 0 → Idles state current := by
  have same : middle.limits = agent.limits := by
    have kept := bookkeeping_sameSetup.keeps_selectPlan trigger none agent
    rw [leaves, chosen] at kept
    exact kept.limits
  let started := { middle with intentions := middle.intentions + 1 }
  let intention : Intention := ⟨started.intentions, [frame], 0⟩
  obtain ⟨steps, executed, outcome, after, runs, few, begun⟩ := exists_runs started intention
  have light := frame.weight_le_two
  have bounded : steps ≤ 3 * agent.limits.maxSteps.toNat + 2 := by
    have all : intention.potential started.limits =
      3 * middle.limits.maxSteps.toNat + (frame.weight + 0) := rfl
    rw [all, same] at few
    omega
  have ran : (runIntention intention).run.run started = (outcome, after) := by
    have looked : (get : AgentM Agent).run.run started = (.ok started, started) := rfl
    rw [runIntention, run_bind, looked]
    exact runs.runFor (same ▸ bounded)
  refine ⟨intention, started, steps, executed, outcome, after, rfl, runs, ran, ?_, bounded,
    same ▸ begun, fun state current more none => ?_⟩
  · rw [handle, run_bind, chosen]
    exact ran
  · exact step_of_not_executes more (by simpa [Intention.executed] using none)

/-- An agent whose goal asks for itself and then fails, with a plan for the failure. -/
def retrying : Agent :=
  idle "a" ⟨1, 1, true⟩
    [⟨.goal (.atom "g"), .literal Term.truth,
        [.achieve (.atom "g"), .action .builtin "fail" []], none⟩,
      ⟨.failure (.atom "g"), .literal Term.truth, [], none⟩] .empty 0

/-- With one statement allowed, the goal ends after five steps at most. -/
theorem handle_ends_retrying : ∃ frame middle,
    (selectPlan (.goal (.atom "g")) none).run.run retrying = (.ok (some frame), middle) ∧
      ∃ intention started steps executed outcome after,
        (begin frame).run.run middle = (.ok intention, started) ∧
          Runs started intention steps executed outcome after ∧
          (runIntention intention).run.run started = (outcome, after) ∧
          (handle (.goal (.atom "g"))).run.run retrying = (outcome, after) ∧
          steps ≤ 5 ∧ executed ≤ 1 ∧
          ∀ (state : Agent) (current : Intention), current.isDone = false →
            current.executed state.limits = 0 → Idles state current :=
  ⟨_, _, rfl, handle_ends rfl⟩

end Agent

end AgentSpeak
