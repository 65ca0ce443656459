import AgentSpeak.Proofs.Agent.Keeping

/-!
Which faults end a whole run. A fault in a statement fails its intention unless it lies in the
numbers. A fault in the context of a plan that is tried for an event or for the failure of a goal is
caught by nothing, and neither is a report there of something that has no text.
-/

namespace AgentSpeak.Agent

variable {α β : Type} {plans : List Plan} {computation : AgentM α}

/-- A fault that no intention catches: it lies in the numbers, in a report or in the context of a
plan. -/
def Escapes (plans : List Plan) (fault : Fault) : Prop :=
  fault.failsIntention = false ∨ fault = .unwritable ∨
    ∃ plan ∈ plans, ∃ (θ : Substitution) (before after : Agent), before.plans = plans ∧
      (holds plan.context θ).run.run before = (.error fault, after)

/-- With these plans, a computation leaves an agent with the same ones, and if it fails, then by a
fault that escapes. -/
def Confines (plans : List Plan) (computation : AgentM α) : Prop :=
  ∀ agent : Agent, agent.plans = plans →
    (leaves computation agent).plans = plans ∧
      ∀ fault after, computation.run.run agent = (.error fault, after) → Escapes plans fault

theorem confines_pure (value : α) : Confines plans (pure value : AgentM α) :=
  fun _ same => ⟨same, fun _ _ ran => by cases ran⟩

theorem Confines.bind {next : α → AgentM β} (first : Confines plans computation)
    (rest : ∀ value, Confines plans (next value)) : Confines plans (computation >>= next) := by
  intro agent same
  obtain ⟨kept, escapes⟩ := first agent same
  unfold leaves at kept ⊢
  rw [run_bind]
  rcases outcome : computation.run.run agent with ⟨fault | value, after⟩
  · rw [outcome] at kept
    refine ⟨kept, fun other _ ran => ?_⟩
    obtain rfl := Except.error.inj (congrArg Prod.fst ran)
    exact escapes fault after outcome
  · rw [outcome] at kept
    exact rest value after kept

theorem confines_get_bind {next : Agent → AgentM α}
    (rest : ∀ agent : Agent, agent.plans = plans → Confines plans (next agent)) :
    Confines plans (get >>= next) :=
  fun agent same => rest agent same agent same

theorem confines_modify {change : Agent → Agent}
    (same : ∀ agent, (change agent).plans = agent.plans) :
    Confines plans (modify change) :=
  fun agent own => ⟨(same agent).trans own, fun _ _ ran => by cases ran⟩

theorem confines_written (writable : Bool) : Confines plans (written writable) := by
  refine fun agent own => ⟨own, fun fault _ ran => ?_⟩
  cases writable with
  | true => cases ran
  | false =>
    cases ran
    exact .inr (.inl rfl)

theorem confines_reportNamed (level : LogLevel) (message : String) :
    Confines plans (reportNamed level message) :=
  confines_get_bind fun _ _ => confines_modify fun _ => rfl

theorem confines_freshNumber : Confines plans freshNumber := by
  refine Confines.bind (confines_modify ?_) fun _ => confines_get_bind fun _ _ => confines_pure _
  exact fun _ => rfl

/-- The context of a plan may fail, and then its fault escapes. -/
theorem confines_holds {plan : Plan} (own : plan ∈ plans) (θ : Substitution) :
    Confines plans (holds plan.context θ) := by
  intro agent same
  have kept := (bookkeeping_sameSetup.keeps_holds plan.context θ agent).plans
  exact ⟨kept.trans same, fun fault after ran =>
    .inr (.inr ⟨plan, own, θ, agent, after, same, ran⟩)⟩

theorem confines_firstApplicable (literal : Term) {some : List Plan}
    (own : ∀ plan ∈ some, plan ∈ plans) : Confines plans (firstApplicable literal some) := by
  induction some with
  | nil => exact confines_pure _
  | cons plan rest ih =>
    have others := ih fun other member => own other (List.mem_cons_of_mem _ member)
    refine confines_get_bind fun agent _ => ?_
    dsimp only
    split
    next => exact others
    next =>
      refine (confines_holds (own plan List.mem_cons_self) _).bind fun found => ?_
      split
      next => exact others
      next => exact confines_pure _

theorem confines_selectPlan (trigger : Trigger) (callerGoal : Option Term) :
    Confines plans (selectPlan trigger callerGoal) := by
  refine confines_freshNumber.bind fun n => ?_
  refine confines_get_bind fun agent same => ?_
  have own : ∀ plan ∈ agent.relevantPlans trigger, plan ∈ plans :=
    fun plan member => same ▸ List.mem_of_mem_filter member
  refine (confines_firstApplicable _ own).bind fun found => ?_
  split
  next => exact confines_pure _
  next =>
    refine (confines_written _).bind fun _ => ?_
    exact (confines_reportNamed _ _).bind fun _ => confines_pure _

theorem confines_begin (frame : Frame) : Confines plans (begin frame) := by
  refine Confines.bind (confines_modify ?_) fun _ => confines_get_bind fun _ _ => confines_pure _
  exact fun _ => rfl

theorem confines_unwind (frames : List Frame) : Confines plans (unwind frames) := by
  induction frames with
  | nil => exact confines_pure _
  | cons frame below ih =>
    rw [unwind]
    split
    next =>
      refine (confines_selectPlan _ _).bind fun found => ?_
      split
      next => exact confines_pure _
      next => exact ih
    next => exact ih

theorem confines_fail (intention : Intention) (place reason : String) :
    Confines plans (fail intention place reason) := by
  refine (confines_reportNamed _ _).bind fun _ => ?_
  refine (confines_unwind _).bind fun found => ?_
  split
  next => exact confines_pure _
  next => exact (confines_reportNamed _ _).bind fun _ => confines_pure _

theorem confines_failAt (intention : Intention) (task : Task) (reason : String) :
    Confines plans (failAt intention task reason) :=
  (confines_written _).bind fun _ => confines_fail _ _ _

theorem confines_complete (intention : Intention) (finished : Frame) (below : List Frame) :
    Confines plans (complete intention finished below) := by
  unfold complete
  split
  next =>
    refine confines_freshNumber.bind fun n => ?_
    refine confines_get_bind fun agent _ => ?_
    dsimp only
    split
    next => exact confines_pure _
    next => exact (confines_written _).bind fun _ => confines_fail _ _ _
  next => exact confines_pure _

/-- A fault of a statement is caught unless it lies in the numbers. -/
theorem confines_attempt (θ : Substitution) (task : Task) : Confines plans (attempt θ task) := by
  intro agent same
  refine ⟨(keepsSetup_attempt θ task agent).plans.trans same, fun fault after ran => .inl ?_⟩
  rw [attempt, run_tryCatch] at ran
  split at ran
  next => cases ran
  next raised between _ =>
    split at ran
    next => cases ran
    next escapes =>
      obtain rfl : raised = fault := Except.error.inj (congrArg Prod.fst ran)
      simpa using escapes

theorem confines_step (intention : Intention) : Confines plans (step intention) := by
  unfold step
  split
  next => exact confines_pure _
  next =>
    split
    next => exact confines_complete _ _ _
    next task _ _ =>
      refine confines_get_bind fun agent _ => ?_
      dsimp only
      split
      next => exact (confines_written _).bind fun _ => confines_failAt _ _ _
      next =>
        refine (confines_attempt _ task).bind fun outcome => ?_
        split
        next => exact confines_failAt _ _ _
        next => exact confines_failAt _ _ _
        next => exact confines_pure _
        next => exact confines_pure _

theorem confines_runFor (fuel : Nat) (intention : Intention) :
    Confines plans (runFor fuel intention) := by
  induction fuel generalizing intention with
  | zero => exact confines_pure _
  | succ fuel ih =>
    rw [runFor]
    split
    next => exact confines_pure _
    next =>
      refine (confines_step intention).bind fun stepped => ?_
      split
      next => exact ih _
      next => exact confines_pure _

theorem confines_handle (trigger : Trigger) : Confines plans (handle trigger) := by
  refine (confines_selectPlan trigger none).bind fun found => ?_
  split
  next =>
    refine Confines.bind ?_ fun _ => confines_pure _
    refine (confines_written _).bind fun _ => ?_
    split <;> exact confines_reportNamed _ _
  next frame =>
    refine (confines_begin frame).bind fun intention => ?_
    exact confines_get_bind fun _ _ => confines_runFor _ _

theorem confines_runEvents (limit handled : Nat) : Confines plans (runEvents limit handled) := by
  induction limit generalizing handled with
  | zero => exact confines_pure _
  | succ limit ih =>
    refine confines_get_bind fun agent _ => ?_
    split
    next => exact confines_pure _
    next =>
      refine Confines.bind (confines_modify ?_) fun _ => (confines_handle _).bind fun _ => ih _
      exact fun _ => rfl

/-- Events are handled as long as there are any, or as many as allowed. -/
theorem runEvents_ends {limit handled total : Nat} {agent after : Agent}
    (ran : (runEvents limit handled).run.run agent = (.ok total, after)) :
    after.events = [] ∨ total = handled + limit := by
  induction limit generalizing handled agent with
  | zero =>
    cases ran
    exact .inr rfl
  | succ limit ih =>
    obtain ⟨looked, _, ⟨⟩, ran⟩ := exists_of_run_bind ran
    split at ran
    next empty =>
      cases ran
      exact .inl empty
    next =>
      obtain ⟨_, _, -, ran⟩ := exists_of_run_bind ran
      obtain ⟨_, _, -, ran⟩ := exists_of_run_bind ran
      rcases ih ran with empty | all
      · exact .inl empty
      · exact .inr (by omega)

/-- A run ends with no event left, with as many handled as allowed, or by a fault in the numbers, in a
report or in the context of one of the plans. -/
theorem run_ends (maxCycles : Option Int) (agent : Agent) :
    match (run maxCycles).run.run agent with
    | (.ok handled, after) =>
        after.events = [] ∨ handled = (maxCycles.map Int.toNat).getD noLimit
    | (.error fault, _) => Escapes agent.plans fault := by
  have confined : Confines agent.plans (run maxCycles) := by
    unfold run
    refine (confines_runEvents _ _).bind fun handled => ?_
    refine confines_get_bind fun _ _ => ?_
    exact (confines_reportNamed _ _).bind fun _ => confines_pure _
  rcases outcome : (run maxCycles).run.run agent with ⟨fault | handled, after⟩
  · exact (confined agent rfl).2 fault after outcome
  · obtain ⟨total, between, ran, rest⟩ := exists_of_run_bind outcome
    obtain ⟨_, _, ⟨⟩, rest⟩ := exists_of_run_bind rest
    obtain ⟨_, _, ⟨⟩, ⟨⟩⟩ := exists_of_run_bind rest
    rcases runEvents_ends ran with empty | all
    · exact .inl empty
    · refine .inr (all.trans ?_)
      cases maxCycles <;> simp

/-- An agent with two goals. The plan for the failure of the first one compares a variable without a
value. -/
def doubting : Agent :=
  { idle "a" ⟨1000, 1000, true⟩
      [⟨.goal (.atom "g"), .literal Term.truth, [.action .builtin "fail" []], none⟩,
        ⟨.failure (.atom "g"), .comparison .greater (.var ⟨"X", []⟩) (.number (.int 1)), [], none⟩,
        ⟨.goal (.atom "h"), .literal Term.truth, [], none⟩] .empty 0 with
    events := [.goal (.atom "g"), .goal (.atom "h")] }

/-- Not every fault stays inside its intention: here the run ends before the second goal. -/
theorem run_stops_doubting : ∃ after, (run none).run.run doubting =
    (.error (.unboundInComparison ⟨"X", []⟩), after) ∧ after.events = [.goal (.atom "h")] :=
  ⟨_, rfl, rfl⟩

end AgentSpeak.Agent
