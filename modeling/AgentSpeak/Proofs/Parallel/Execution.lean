import AgentSpeak.Proofs.Parallel.Computation

namespace AgentSpeak.Agent

variable {α : Type} {θ : Substitution}

/-- Two agents may report different things. -/
theorem parallel_report (level level' : LogLevel) (message message' : String) :
    Parallel Eq (report level message) (report level' message') :=
  parallel_modify fun _ begun _ => ⟨begun, _, rfl⟩

theorem parallel_reportNamed (level level' : LogLevel) (message message' : String) :
    Parallel Eq (reportNamed level message) (reportNamed level' message') :=
  .get fun _ _ _ => parallel_report _ _ _ _

theorem indifferent_written (writable : Bool) : Indifferent (written writable) :=
  indifferent_ofExcept _

theorem indifferent_print (text : String) : Indifferent (print text) :=
  Parallel.onward (parallel_modify fun _ begun log => ⟨begun, log, rfl⟩) fun _ =>
    .get fun _ _ _ => indifferent_ofExcept _

theorem indifferent_post (trigger : Trigger) : Indifferent (post trigger) :=
  (indifferent_written _).bind fun _ => (parallel_reportNamed _ _ _ _).onward fun _ =>
    parallel_modify fun _ begun log => ⟨begun, log, rfl⟩

theorem indifferent_freshNumber : Indifferent freshNumber :=
  Parallel.onward (parallel_modify fun _ begun log => ⟨begun, log, rfl⟩) fun _ =>
    .get fun _ _ _ => indifferent_pure _

theorem indifferent_revise (change : BeliefBase → BeliefBase.Revision α) :
    Indifferent (revise change) :=
  .get fun _ _ _ => Parallel.onward (parallel_modify fun _ begun log => ⟨begun, log, rfl⟩) fun _ =>
    (indifferent_forM fun _ => parallel_report _ _ _ _).bind fun _ => indifferent_ofExcept _

theorem indifferent_searching (search : BeliefBase → Except Fault α × BeliefBase) :
    Indifferent (searching search) :=
  .get fun _ _ _ =>
    Parallel.onward (parallel_modify fun _ begun log => ⟨begun, log, rfl⟩) fun _ =>
      indifferent_ofExcept _

theorem indifferent_holds (formula : Formula) (θ : Substitution) :
    Indifferent (holds formula θ) :=
  .get fun _ _ _ => indifferent_searching _

theorem indifferent_answers (formula : Formula) (θ : Substitution) :
    Indifferent (answers formula θ) :=
  .get fun _ _ _ => indifferent_searching _

theorem indifferent_resolve (θ : Substitution) (term : Term) :
    Indifferent (resolve θ term) :=
  indifferent_ofExcept _

theorem indifferent_addBelief (fact : Term) : Indifferent (addBelief fact) := by
  refine (indifferent_revise _).bind fun added => ?_
  dsimp only
  split
  next => exact (indifferent_post _).bind fun _ => indifferent_pure _
  next => exact indifferent_pure _

theorem indifferent_removeBeliefs (pattern : Term) : Indifferent (removeBeliefs pattern) :=
  .get fun _ _ _ => (indifferent_revise _).bind fun _ =>
    (indifferent_forM fun _ => indifferent_post _).bind fun _ => indifferent_pure _

theorem indifferent_achieve (goal : Term) : Indifferent (achieve goal) :=
  indifferent_post _

theorem indifferent_query (formula : Formula) : Indifferent (query formula) :=
  (indifferent_answers _ _).bind fun _ => indifferent_pure _

theorem indifferent_displayed (θ : Substitution) (term : Term) : Indifferent (displayed θ term) :=
  (indifferent_resolve _ _).bind fun _ => (indifferent_written _).bind fun _ => indifferent_pure _

theorem indifferent_performPrint (arguments : List Term) (θ : Substitution) :
    Indifferent (performPrint arguments θ) :=
  (indifferent_mapM fun _ => indifferent_displayed _ _).bind fun _ =>
    (indifferent_print _).bind fun _ => indifferent_pure _

theorem indifferent_performBuiltin (name : String) (arguments : List Term) (θ : Substitution) :
    Indifferent (performBuiltin name arguments θ) := by
  unfold performBuiltin
  split
  next => exact indifferent_performPrint _ _
  next => exact indifferent_performPrint _ _
  next => exact indifferent_pure _
  next =>
    unfold performMyName
    split
    next => exact .get fun _ _ _ => indifferent_pure _
    next => exact parallel_throw _
  next =>
    unfold performCount
    split
    next => exact (indifferent_answers _ _).bind fun _ => indifferent_pure _
    next => exact parallel_throw _
  next =>
    unfold performFindall
    split
    next =>
      exact (indifferent_answers _ _).bind fun _ => (indifferent_written _).bind fun _ =>
        (parallel_report _ _ _ _).onward fun _ => indifferent_pure _
    next => exact parallel_throw _
  next => exact parallel_throw _

theorem indifferent_performUser (name : String) (arguments : List Term) (θ : Substitution) :
    Indifferent (performUser name arguments θ) := by
  refine .get fun agent _ _ => ?_
  dsimp only [beside]
  split
  next => exact parallel_throw _
  next =>
    exact (indifferent_mapM fun _ => indifferent_resolve _ _).bind fun _ =>
      Parallel.onward (parallel_modify fun _ begun log => ⟨begun, log, rfl⟩) fun _ =>
        indifferent_ofExcept _

theorem indifferent_perform (kind : ActionKind) (name : String) (arguments : List Term)
    (θ : Substitution) : Indifferent (perform kind name arguments θ) := by
  cases kind with
  | builtin => exact indifferent_performBuiltin name arguments θ
  | user => exact indifferent_performUser name arguments θ

theorem indifferent_firstApplicable (literal : Term) (plans : List Plan) :
    Indifferent (firstApplicable literal plans) := by
  induction plans with
  | nil => exact indifferent_pure _
  | cons plan rest ih =>
    refine .get fun agent _ _ => ?_
    dsimp only [beside]
    split
    next => exact ih
    next =>
      refine (indifferent_holds _ _).bind fun found => ?_
      split
      next => exact ih
      next => exact indifferent_pure _

theorem indifferent_selectPlan (trigger : Trigger) (callerGoal : Option Term) :
    Indifferent (selectPlan trigger callerGoal) := by
  refine indifferent_freshNumber.bind fun n => .get fun agent _ _ => ?_
  refine Parallel.onward (indifferent_firstApplicable _ _) fun found => ?_
  split
  next => exact indifferent_pure _
  next =>
    exact (indifferent_written _).bind fun _ =>
      (parallel_reportNamed _ _ _ _).onward fun _ => indifferent_pure _

theorem indifferent_executeAchieve (θ : Substitution) (goal : Term) :
    Indifferent (executeAchieve θ goal) := by
  refine (indifferent_resolve _ _).bind fun goal => ?_
  refine (indifferent_selectPlan _ _).bind fun found => ?_
  split
  next => exact indifferent_pure _
  next =>
    exact (indifferent_written _).bind fun _ =>
      (parallel_reportNamed _ _ _ _).onward fun _ => indifferent_pure _

theorem indifferent_executeTest (θ : Substitution) (goal : Term) :
    Indifferent (executeTest θ goal) := by
  refine .get fun agent _ _ => Parallel.onward (indifferent_searching _) fun found => ?_
  split
  next => exact indifferent_pure _
  next =>
    refine (indifferent_resolve _ _).bind fun goal => ?_
    refine (indifferent_selectPlan _ _).bind fun chosen => ?_
    split
    next => exact indifferent_pure _
    next => exact indifferent_pure _

theorem indifferent_executeRemove (θ : Substitution) (literal : Term) :
    Indifferent (executeRemove θ literal) := by
  refine (indifferent_resolve _ _).bind fun pattern => .get fun agent _ _ => ?_
  refine Parallel.onward (indifferent_revise _) fun removed => ?_
  split
  next => exact indifferent_pure _
  next => exact (indifferent_post _).bind fun _ => indifferent_pure _

theorem indifferent_executeReplace (θ : Substitution) (literal : Term) :
    Indifferent (executeReplace θ literal) := by
  refine (indifferent_resolve _ _).bind fun fact => .get fun agent _ _ => ?_
  refine Parallel.onward (indifferent_revise _) fun removed => ?_
  refine (indifferent_forM fun _ => indifferent_post _).bind fun _ => ?_
  dsimp only
  split
  next => exact indifferent_pure _
  next => exact (indifferent_post _).bind fun _ => indifferent_pure _

theorem indifferent_executeTestOfLoop (θ : Substitution) (condition : Formula)
    (body : List Statement) (fresh : List Variable) :
    Indifferent (executeTestOfLoop θ condition body fresh) := by
  refine (indifferent_holds _ _).bind fun found => ?_
  split
  next => exact indifferent_pure _
  next => exact indifferent_pure _

/-- What a task does to its frame depends on nothing in which the two agents differ. -/
theorem indifferent_execute (θ : Substitution) (task : Task) :
    Indifferent (execute θ task) := by
  cases task with
  | retest condition body fresh => exact indifferent_executeTestOfLoop θ condition body fresh
  | statement step =>
    cases step with
    | achieve goal => exact indifferent_executeAchieve θ goal
    | achieveLater goal =>
      exact (indifferent_resolve _ _).bind fun _ =>
        (indifferent_achieve _).bind fun _ => indifferent_pure _
    | test goal => exact indifferent_executeTest θ goal
    | add literal =>
      exact (indifferent_resolve _ _).bind fun _ =>
        (indifferent_addBelief _).bind fun _ => indifferent_pure _
    | remove literal => exact indifferent_executeRemove θ literal
    | replace literal => exact indifferent_executeReplace θ literal
    | action kind name arguments =>
      exact (indifferent_perform _ _ _ _).bind fun _ => indifferent_pure _
    | constraint relation left right =>
      exact (indifferent_holds _ _).bind fun _ => indifferent_pure _
    | branch condition positive negative =>
      refine (indifferent_holds _ _).bind fun found => ?_
      split
      next => exact indifferent_pure _
      next => exact indifferent_pure _
    | loop condition body => exact indifferent_executeTestOfLoop θ condition body _

theorem indifferent_attempt (θ : Substitution) (task : Task) :
    Indifferent (attempt θ task) := by
  refine Indifferent.tryCatch ?_ fun fault => ?_
  · exact (indifferent_execute θ task).bind fun _ => indifferent_pure _
  · split
    next => exact indifferent_pure _
    next => exact parallel_throw _

theorem indifferent_unwind (frames : List Frame) : Indifferent (unwind frames) := by
  induction frames with
  | nil => exact indifferent_pure _
  | cons frame below ih =>
    rw [unwind]
    split
    next =>
      refine (indifferent_selectPlan _ _).bind fun found => ?_
      split
      next => exact indifferent_pure _
      next => exact ih
    next => exact ih

/-- Two intentions that differ in their numbers only, and whether they are still under way. -/
def SameTurn (turn other : Bool × Intention) : Prop :=
  ∃ id, other = (turn.1, { turn.2 with id })

variable (intention : Intention) (id : Nat)

theorem parallel_fail (place reason place' reason' : String) :
    Parallel SameTurn (fail intention place reason)
      (fail { intention with id } place' reason') := by
  refine (parallel_reportNamed _ _ _ _).onward fun _ => ?_
  refine (indifferent_unwind _).bind fun found => ?_
  split
  next => exact parallel_pure ⟨id, rfl⟩
  next =>
    exact (parallel_reportNamed _ _ _ _).onward fun _ => parallel_pure ⟨id, rfl⟩

theorem parallel_failAt (task : Task) (reason : String) :
    Parallel SameTurn (failAt intention task reason) (failAt { intention with id } task reason) :=
  (indifferent_written _).bind fun _ => parallel_fail intention id _ _ _ _

theorem parallel_complete (finished : Frame) (below : List Frame) :
    Parallel SameTurn (complete intention finished below)
      (complete { intention with id } finished below) := by
  unfold complete
  split
  next =>
    refine indifferent_freshNumber.bind fun n => .get fun agent _ _ => ?_
    dsimp only [beside]
    split
    next => exact parallel_pure ⟨id, rfl⟩
    next =>
      exact (indifferent_written _).bind fun _ =>
        parallel_fail (intention.withFrames _) id _ _ _ _
  next => exact parallel_pure ⟨id, rfl⟩

theorem parallel_step : Parallel SameTurn (step intention) (step { intention with id }) := by
  unfold step
  dsimp only
  split
  next => exact parallel_pure ⟨id, rfl⟩
  next frame below _ =>
    split
    next => exact parallel_complete intention id frame below
    next task tasks _ =>
      have failing (reason : String) : Parallel SameTurn
          (failAt ⟨intention.id, intention.frames, intention.steps + 1⟩ task reason)
          (failAt ⟨id, intention.frames, intention.steps + 1⟩ task reason) :=
        parallel_failAt ⟨intention.id, intention.frames, intention.steps + 1⟩ id _ _
      refine .get fun agent _ _ => ?_
      dsimp only [beside]
      split
      next => exact (indifferent_written _).bind fun _ => failing _
      next =>
        refine (indifferent_attempt _ _).bind fun result => ?_
        split
        next => exact failing _
        next => exact failing _
        next => exact parallel_pure ⟨id, rfl⟩
        next => exact parallel_pure ⟨id, rfl⟩

theorem parallel_runFor (fuel : Nat) :
    Parallel Eq (runFor fuel intention) (runFor fuel { intention with id }) := by
  induction fuel generalizing intention id with
  | zero => exact indifferent_pure _
  | succ fuel ih =>
    rw [runFor, runFor, show Intention.isDone { intention with id } = intention.isDone from rfl]
    split
    next => exact indifferent_pure _
    next =>
      refine (parallel_step intention id).bind fun turn turn' same => ?_
      obtain ⟨live, next⟩ := turn
      obtain ⟨id', rfl⟩ := same
      cases live with
      | true => exact ih next id'
      | false => exact indifferent_pure _

theorem parallel_begin (frame : Frame) :
    Parallel (fun one two => ∃ id, two = { one with id }) (begin frame) (begin frame) :=
  Parallel.onward (parallel_modify fun _ begun log => ⟨begun + 1, log, rfl⟩) fun _ =>
    .get fun _ begun _ => parallel_pure ⟨begun, rfl⟩

/-- Both agents handle an event with the same result. -/
theorem indifferent_handle (trigger : Trigger) : Indifferent (handle trigger) := by
  refine (indifferent_selectPlan trigger none).bind fun found => ?_
  split
  next =>
    have reported : Indifferent (reportUnhandled trigger) := by
      refine (indifferent_written _).bind fun _ => ?_
      split
      next => exact parallel_reportNamed _ _ _ _
      next => exact parallel_reportNamed _ _ _ _
    exact reported.bind fun _ => indifferent_pure _
  next frame =>
    refine (parallel_begin frame).bind fun intention other same => ?_
    obtain ⟨id, rfl⟩ := same
    exact .get fun agent _ _ => parallel_runFor intention id _

/-- Both agents handle the same events of their queues. -/
theorem indifferent_runEvents (limit handled : Nat) : Indifferent (runEvents limit handled) := by
  induction limit generalizing handled with
  | zero => exact indifferent_pure _
  | succ limit ih =>
    refine .get fun agent begun log => ?_
    dsimp only [beside]
    split
    next => exact indifferent_pure _
    next trigger rest _ =>
      refine Parallel.onward (parallel_modify fun _ begun log => ⟨begun, log, rfl⟩) fun _ => ?_
      exact (indifferent_handle trigger).bind fun _ => ih _

theorem indifferent_run (maxCycles : Option Int) : Indifferent (run maxCycles) :=
  (indifferent_runEvents _ _).bind fun _ => .get fun _ _ _ =>
    (parallel_reportNamed _ _ _ _).onward fun _ => indifferent_pure _

end AgentSpeak.Agent
