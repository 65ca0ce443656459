import AgentSpeak.Proofs.Agent.Returning
import AgentSpeak.Proofs.Variants.Execution

/-!
The steps of two agents that differ in the names of variables. Every frame of a stack has a stage of
its own. A goal passes from the stage of the caller into that of the called frame, and the result
comes back with names that neither caller knows.
-/

namespace AgentSpeak

namespace Stage

variable {stage : Stage False} {agent other after after' : Agent} {n n' : Nat}

/-- What two callers make of the variables of a finished frame. -/
def returning (n n' : Nat) : Correspondence.Copying False where
  left := Variable.forCaller n
  right := Variable.forCaller n'
  left_injective := Variable.forCaller_injective n
  right_injective := Variable.forCaller_injective n'
  base shown := shown.elim

theorem fresh_returned (serves : stage.Serves agent other) (source : Correspondence False)
    (above : agent.renamings < n) (above' : other.renamings < n') :
    Correspondence.Fresh stage.toCorrespondence source (returning n n') where
  left {v w} known _ same := by
    have settled := (serves.settled v known).1
    rw [same] at settled
    have bound := (w.hide.mark_result_settled_iff n _).mp settled
    omega
  right {v w} known _ same := by
    have settled := (serves.settled v known).2
    rw [same] at settled
    have bound := ((source.name w).hide.mark_result_settled_iff n' _).mp settled
    omega

/-- The stage of a caller that has the result of a finished frame. -/
noncomputable def receiving (serves : stage.Serves agent other) (source : Correspondence False)
    (above : agent.renamings < n) (above' : other.renamings < n') : Stage False where
  toCorrespondence := stage.graft source _ (fresh_returned serves source above above')
  count := stage.count
  count' := stage.count'
  predates := by
    refine stage.predates.graft (fun w _ => ⟨?_, ?_⟩)
      (fresh_returned serves source above above')
    · exact w.hide.predates_mark (Variable.mem_lettered 'c' (toString n)) (by decide) _
    · exact (source.name w).hide.predates_mark (Variable.mem_lettered 'c' (toString n'))
        (by decide) _

variable (serves : stage.Serves agent other) (source : Correspondence False)
  (above : agent.renamings < n) (above' : other.renamings < n')

theorem receiving_extends :
    (receiving serves source above above').toCorrespondence.Extends stage.toCorrespondence :=
  Correspondence.graft_extends (fresh_returned serves source above above')

theorem receiving_serves (onwards : Agent.Onwards agent other after after')
    (bound : n ≤ after.renamings) (bound' : n' ≤ after'.renamings) :
    (receiving serves source above above').Serves after after' where
  fits := ⟨Nat.le_trans serves.fits.count onwards.rules,
    Nat.le_trans serves.fits.count' onwards.rules'⟩
  settled := by
    refine Correspondence.Both.graft (serves.after onwards).settled (fun w _ => ⟨?_, ?_⟩)
      (fresh_returned serves source above above')
    · exact (w.hide.mark_result_settled_iff n _).mpr bound
    · exact ((source.name w).hide.mark_result_settled_iff n' _).mpr bound'

/-- The results of finished frames that correspond. -/
theorem receiving_returned {own : Stage False} {finished finished' : Frame}
    (vary : finished.Varies own finished') :
    (receiving serves own.toCorrespondence above above').Terms (Agent.returned finished n)
      (Agent.returned finished' n') := by
  have terms := Correspondence.terms_apply vary.literal vary.bindings
  have fresh := fresh_returned serves own.toCorrespondence above above'
  refine ⟨Correspondence.over_graft fresh terms.known, ?_⟩
  refine .trans ?_ (Correspondence.rename_graft fresh terms.known).symm
  rw [← terms.same]
  rfl

end Stage

namespace Agent

/-- Stacks of corresponding frames. The goals that a frame above waits for correspond at the stage
of the first frame. -/
inductive Stacked (agent other : Agent) :
    Option Term → Option Term → List Frame → List Frame → Prop where
  | nil : Stacked agent other goal goal' [] []
  | cons {frame frame' : Frame} {frames frames' : List Frame} (stage : Stage False)
      (serves : stage.Serves agent other)
      (asked : Option.Rel stage.Terms goal goal') (vary : frame.Varies stage frame')
      (below : Stacked agent other frame.callerGoal frame'.callerGoal frames frames') :
      Stacked agent other goal goal' (frame :: frames) (frame' :: frames')

variable {agent other : Agent} {stage : Stage False} {goal goal' : Option Term}
  {frames frames' : List Frame}

theorem Stacked.after {after after' : Agent}
    (stacked : Stacked agent other goal goal' frames frames')
    (onwards : Onwards agent other after after') :
    Stacked after after' goal goal' frames frames' := by
  induction stacked with
  | nil => exact .nil
  | cons stage serves asked vary below ih =>
    exact .cons stage (serves.after onwards) asked vary ih

/-- Nobody waits for the first frames any more. -/
theorem Stacked.released (stacked : Stacked agent other goal goal' frames frames') :
    Stacked agent other none none frames frames' := by
  cases stacked with
  | nil => exact .nil
  | cons stage serves asked vary below => exact .cons stage serves .none vary below

theorem Stacked.push {frame frame' : Frame} (below : Stacked agent other goal goal' frames frames')
    (opened : Opened goal goal' frame frame' agent other) :
    Stacked agent other none none (frame :: frames) (frame' :: frames') := by
  obtain ⟨rfl, rfl, stage, serves, vary⟩ := opened
  exact .cons stage serves .none vary below

/-- Intentions with corresponding stacks that have taken as many steps. -/
structure Intention.Varies (agent other : Agent) (intention intention' : Intention) : Prop where
  steps : intention'.steps = intention.steps
  stacked : Stacked agent other none none intention.frames intention'.frames

theorem together_unwind (varies : agent.Varies other)
    (stacked : Stacked agent other goal goal' frames frames') :
    Together agent other (unwind frames) (unwind frames') fun found found' after after' =>
      Option.Rel (Stacked after after' none none) found found' := by
  induction frames generalizing agent other goal goal' frames' with
  | nil =>
    cases stacked
    exact together_pure varies .none
  | cons frame rest ih =>
    cases stacked with
    | @cons _ _ _ frame' _ rest' stage serves asked vary below =>
      have pursues : frame'.pursuesGoal = frame.pursuesGoal := by
        rw [Frame.pursuesGoal, Frame.pursuesGoal, vary.change, vary.subject]
      have terms := Correspondence.terms_apply vary.literal vary.bindings
      rw [unwind, unwind, pursues]
      split
      next =>
        refine (together_selectPlan varies (terms.event _ _) none none).bind
          fun found found' after after' onwards varies chosen => ?_
        cases chosen with
        | none => exact ih varies (below.after onwards)
        | some opened =>
          exact together_pure varies (.some ((below.after onwards).released.push opened))
      next => exact ih varies below

/-- Two computations of a step. -/
abbrev Move (agent other : Agent) (computation computation' : AgentM (Bool × Intention)) : Prop :=
  Together agent other computation computation' fun result result' after after' =>
    result'.1 = result.1 ∧ Intention.Varies after after' result.2 result'.2

variable {intention intention' : Intention}

theorem move_fail (varies : agent.Varies other)
    (own : Intention.Varies agent other intention intention')
    (place reason place' reason' : String) :
    Move agent other (fail intention place reason) (fail intention' place' reason') := by
  refine (together_reportNamed varies _ _ _ _).bind fun _ _ _ _ onwards varies _ => ?_
  refine (together_unwind varies (own.stacked.after onwards)).bind
    fun found found' _ _ _ varies handled => ?_
  cases handled with
  | some stacked => exact together_pure varies ⟨rfl, own.steps, stacked⟩
  | none =>
    refine (together_reportNamed varies _ _ _ _).bind fun _ _ _ _ _ varies _ => ?_
    exact together_pure varies ⟨rfl, own.steps, .nil⟩

theorem move_failAt (varies : agent.Varies other)
    (own : Intention.Varies agent other intention intention') {task task' : Task}
    (tasks : stage.Tasks task task') (reason reason' : String) :
    Move agent other (failAt intention task reason) (failAt intention' task' reason') :=
  .written varies tasks.isWritable (move_fail varies own _ _ _ _)

theorem move_complete (varies : agent.Varies other) (steps : intention'.steps = intention.steps)
    {finished finished' : Frame} (vary : finished.Varies stage finished')
    (below : Stacked agent other finished.callerGoal finished'.callerGoal frames frames') :
    Move agent other (complete intention finished frames)
      (complete intention' finished' frames') := by
  have left (released : Stacked agent other none none frames frames') :
      Move agent other (pure (true, intention.withFrames frames))
        (pure (true, intention'.withFrames frames')) :=
    together_pure varies ⟨rfl, steps, released⟩
  unfold complete
  generalize finished.callerGoal = goal at below ⊢
  generalize finished'.callerGoal = goal' at below ⊢
  cases below with
  | nil => cases goal <;> cases goal' <;> exact left .nil
  | @cons _ _ caller caller' rest rest' callerStage serves asked callerVary others =>
    have released : Stacked agent other none none (caller :: rest) (caller' :: rest') :=
      .cons callerStage serves .none callerVary others
    cases asked with
    | none => exact left released
    | some goals =>
      refine (together_freshNumber varies).bind fun n n' after after' onwards varies fresh => ?_
      obtain ⟨same, same', above, above'⟩ := fresh
      let receiving := Stage.receiving serves stage.toCorrespondence above above'
      have wider : receiving.toCorrespondence.Extends callerStage.toCorrespondence :=
        Stage.receiving_extends serves stage.toCorrespondence above above'
      have result := Stage.receiving_returned serves above above' vary
      have unified := receiving.unify?_related (wider.terms goals) result
        (wider.bindings callerVary.bindings) after.limits.occursCheck
      refine .get ?_
      rw [varies.limits]
      dsimp only
      generalize caller.bindings.unify? after.limits.occursCheck _ _ = found at unified ⊢
      generalize caller'.bindings.unify? after.limits.occursCheck _ _ = found' at unified ⊢
      cases unified with
      | none =>
        have failed : Intention.Varies after after' (intention.withFrames (caller :: rest))
            (intention'.withFrames (caller' :: rest')) :=
          ⟨steps, released.after onwards⟩
        exact .written varies result.isWritable (move_fail varies failed _ _ _ _)
      | some bindings =>
        refine together_pure varies ⟨rfl, steps, ?_⟩
        refine .cons receiving ?_ .none ?_ (others.after onwards)
        · exact Stage.receiving_serves serves _ above above' onwards same.le same'.le
        · exact ⟨callerVary.change, callerVary.subject, bindings, wider.terms callerVary.literal,
            wider.allTasks callerVary.tasks⟩

/-- Either both tasks had an effect or both failed. -/
inductive Attempted (stage : Stage False) (after after' : Agent) :
    Except String Effect → Except String Effect → Prop where
  | failed : Attempted stage after after' (.error reason) (.error reason')
  | done (vary : effect.Varies stage after after' effect') :
      Attempted stage after after' (.ok effect) (.ok effect')

theorem together_attempt (varies : agent.Varies other) (serves : stage.Serves agent other)
    {θ θ' : Substitution} (bindings : stage.Bindings θ θ') {task task' : Task}
    (tasks : stage.Tasks task task') :
    Together agent other (attempt θ task) (attempt θ' task') fun result result' after after' =>
      Attempted stage after after' result result' := by
  refine Together.tryCatch ?_ ?_
  · refine (together_execute varies serves bindings tasks).bind fun _ _ _ _ _ varies effect => ?_
    exact together_pure varies (.done effect)
  · intro fault fault' after after' _ varies alike
    rw [alike.failsIntention]
    split
    next => exact together_pure varies .failed
    next => exact together_throw varies alike

/-- Corresponding intentions take corresponding steps. -/
theorem move_step (varies : agent.Varies other)
    (own : Intention.Varies agent other intention intention') :
    Move agent other (step intention) (step intention') := by
  have stacked := own.stacked
  unfold step
  generalize shape : intention.frames = frames at stacked ⊢
  generalize shape' : intention'.frames = frames' at stacked ⊢
  cases stacked with
  | nil => exact together_pure varies ⟨rfl, own⟩
  | @cons _ _ frame frame' rest rest' stage serves asked vary below =>
    have tasks := vary.tasks
    dsimp only
    generalize frame.tasks = left at tasks ⊢
    generalize frame'.tasks = left' at tasks ⊢
    cases tasks with
    | nil => exact move_complete varies own.steps vary below
    | @cons task task' tasks tasks' first others =>
      have counted {after after' : Agent} (onwards : Onwards agent other after after') :
          Intention.Varies after after' ⟨intention.id, frame :: rest, intention.steps + 1⟩
            ⟨intention'.id, frame' :: rest', intention.steps + 1⟩ :=
        ⟨rfl, (Stacked.cons stage serves asked vary below).after onwards⟩
      refine .get ?_
      rw [varies.limits, own.steps]
      split
      next => exact .written varies rfl (move_failAt varies (counted (.refl agent other)) first _ _)
      next =>
        refine (together_attempt varies serves vary.bindings first).bind
          fun result result' after after' onwards varies attempted => ?_
        cases attempted with
        | failed => exact move_failAt varies (counted onwards) first _ _
        | done effect =>
          cases effect with
          | failed => exact move_failAt varies (counted onwards) first _ _
          | proceeded later leads laterServes bindings inserted =>
            refine together_pure varies ⟨rfl, rfl, ?_⟩
            refine .cons later laterServes .none ⟨vary.change, vary.subject, bindings, ?_, ?_⟩
              (below.after onwards)
            · exact leads.keeps.terms vary.literal
            · exact List.rel_append inserted (leads.keeps.allTasks others)
          | called goals opened =>
            refine together_pure varies ⟨rfl, rfl, ?_⟩
            refine Stacked.push (.cons stage (serves.after onwards) (.some goals) ?_
              (below.after onwards)) opened
            exact ⟨vary.change, vary.subject, vary.bindings, vary.literal, others⟩

end Agent

end AgentSpeak
