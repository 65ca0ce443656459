import AgentSpeak.Proofs.Agent.Execution

/-!
Steps of an intention. A step works on the first frame of the stack, gives its bindings to the frame
below when it has ended, or takes frames off for a plan that handles their failure. Every other
frame stays as it is.
-/

namespace AgentSpeak

open Substitution

namespace Agent

/-- A frame that waits for nobody takes the place of the first frames of a stack, which have
failed. -/
inductive Handles : List Frame → List Frame → Prop where
  | here (failed : Frame) (waits : handler.callerGoal = none) :
      Handles (failed :: below) (handler :: below)
  | under (failed : Frame) (handles : Handles below later) : Handles (failed :: below) later

/-- What a step can make of a stack of frames. -/
inductive Moves : List Frame → List Frame → Prop where
  /-- The intention is dropped, or was done before. -/
  | emptied : Moves frames []
  /-- The first frame has ended, and nobody waits for it. -/
  | ended : Moves (frame :: below) below
  /-- The first frame has ended, and its caller has new bindings. -/
  | returned (bindings : Substitution) :
      Moves (frame :: caller :: others) ({ caller with bindings } :: others)
  /-- The first frame goes on. -/
  | proceeded (bindings : Substitution) (tasks : List Task) :
      Moves (frame :: below) ({ frame with bindings, tasks } :: below)
  /-- The first frame waits for another one. -/
  | called (left : frame.tasks = task :: tasks) (calls : CalledBy frame.bindings task goal callee) :
      Moves (frame :: below) (callee :: { frame with tasks } :: below)
  /-- Some frames have failed, and another one handles that. -/
  | handled (handles : Handles frames later) : Moves frames later

/-- Frames have known variables only. -/
def AllKnown (known : Variable → Prop) (frames : List Frame) : Prop :=
  ∀ frame ∈ frames, frame.Over known

variable {known : Variable → Prop} {frames : List Frame}

theorem allKnown_cons {frame : Frame} :
    AllKnown known (frame :: frames) ↔ frame.Over known ∧ AllKnown known frames :=
  List.forall_mem_cons

theorem AllKnown.mono {wider : Variable → Prop} (all : AllKnown known frames)
    (more : ∀ v, known v → wider v) : AllKnown wider frames :=
  fun frame member => (all frame member).mono more

/-- A frame that goes on has known variables only. -/
theorem Effect.Follows.known_proceeded {frame : Frame} {below : List Frame} {task : Task}
    {tasks inserted : List Task} {bindings : Substitution} (all : AllKnown known (frame :: below))
    (left : frame.tasks = task :: tasks)
    (follows : Effect.Follows known frame.bindings task (.proceeded bindings inserted)) :
    AllKnown known ({ frame with bindings, tasks := inserted ++ tasks } :: below) := by
  obtain ⟨frameOver, belowKnown⟩ := allKnown_cons.mp all
  rcases follows with _ | ⟨bindingsOver, insertedOver⟩ | _
  refine allKnown_cons.mpr ⟨{ frameOver with bindings := bindingsOver, tasks := ?_ }, belowKnown⟩
  intro other member
  rcases List.mem_append.mp member with fresh | old
  · exact insertedOver other fresh
  · exact frameOver.tasks other (left ▸ List.mem_cons_of_mem _ old)

/-- A frame that is called has known variables only, and so has its caller. -/
theorem Effect.Follows.known_called {frame callee : Frame} {below : List Frame} {task : Task}
    {tasks : List Task} (all : AllKnown known (frame :: below)) (left : frame.tasks = task :: tasks)
    (follows : Effect.Follows known frame.bindings task (.called callee)) :
    AllKnown known (callee :: { frame with tasks } :: below) := by
  obtain ⟨frameOver, belowKnown⟩ := allKnown_cons.mp all
  rcases follows with _ | _ | ⟨calleeOver, -⟩
  refine allKnown_cons.mpr ⟨calleeOver, allKnown_cons.mpr ⟨?_, belowKnown⟩⟩
  exact { frameOver with
    tasks := fun other member => frameOver.tasks other (left ▸ List.mem_cons_of_mem _ member) }

end Agent

namespace Watch

open Agent

variable {source : Variable → Prop} {since : Nat} {watch : Watch} {frames : List Frame}

theorem over_instantiated {known : Variable → Prop} {frame : Frame} (ranges : frame.Over known) :
    frame.instantiated.Over known :=
  ranges.bindings.apply ranges.literal

theorem ensures_unwind (named : watch.IsNamed source since)
    (all : AllKnown (watch.Known source) frames) :
    Ensures source since watch (unwind frames) fun found after => ∀ later, found = some later →
      AllKnown (after.Known source) later ∧ Handles frames later := by
  induction frames generalizing watch with
  | nil => exact ensures_pure named fun _ same => by cases same
  | cons frame below ih =>
    obtain ⟨frameOver, belowKnown⟩ := allKnown_cons.mp all
    have further {watch : Watch} (named : watch.IsNamed source since)
        (known : AllKnown (watch.Known source) below) :
        Ensures source since watch (unwind below) fun found after => ∀ later, found = some later →
          AllKnown (after.Known source) later ∧ Handles (frame :: below) later := by
      refine (ih named known).mono fun found after _ own later same => ?_
      obtain ⟨laterKnown, handles⟩ := own later same
      exact ⟨laterKnown, .under frame handles⟩
    unfold unwind
    split
    next =>
      refine (ensures_selectPlan named none (over_instantiated frameOver)
        fun _ same => by cases same).bind ?_
      intro found after later named' own
      have kept := belowKnown.mono later.known
      split
      next handler =>
        obtain ⟨handlerOver, answers⟩ := own handler rfl
        refine ensures_pure named' ?_
        rintro _ ⟨⟩
        exact ⟨allKnown_cons.mpr ⟨handlerOver, kept⟩, .here frame answers.waits⟩
      next => exact further named' kept
    next => exact further named belowKnown

/-- A failure drops the intention or is handled. -/
theorem ensures_fail (named : watch.IsNamed source since) {intention : Intention}
    (all : AllKnown (watch.Known source) intention.frames) (place reason : String) :
    Ensures source since watch (fail intention place reason) fun result after =>
      (result.2.frames = [] ∨ Handles intention.frames result.2.frames) ∧
        AllKnown (after.Known source) result.2.frames := by
  refine (ensures_reportNamed named _ _).bind fun _ second later named' _ => ?_
  refine (ensures_unwind named' (all.mono later.known)).bind fun found after _ named'' own => ?_
  split
  next frames =>
    obtain ⟨nextKnown, handles⟩ := own frames rfl
    exact ensures_pure named'' ⟨.inr handles, nextKnown⟩
  next =>
    refine (ensures_reportNamed named'' _ _).bind fun _ last _ namedLast _ => ?_
    exact ensures_pure namedLast ⟨.inl rfl, fun _ member => nomatch member⟩

/-- A step leads to a stack that the one before moves to, with known variables only. -/
abbrev StepsTo (source : Variable → Prop) (since : Nat) (watch : Watch) (frames : List Frame)
    (watched : WatchM (Bool × Intention)) : Prop :=
  Ensures source since watch watched fun result after =>
    Moves frames result.2.frames ∧ AllKnown (after.Known source) result.2.frames

theorem stepsTo_fail (named : watch.IsNamed source since) {intention : Intention}
    (all : AllKnown (watch.Known source) intention.frames) (place reason : String) :
    StepsTo source since watch intention.frames (fail intention place reason) := by
  refine (ensures_fail named all place reason).mono ?_
  rintro ⟨live, next⟩ after - ⟨dropped | handles, nextKnown⟩
  · exact ⟨dropped ▸ .emptied, nextKnown⟩
  · exact ⟨.handled handles, nextKnown⟩

theorem stepsTo_failAt (named : watch.IsNamed source since) {intention : Intention}
    (all : AllKnown (watch.Known source) intention.frames) (task : Task) (reason : String) :
    StepsTo source since watch intention.frames (failAt intention task reason) := by
  refine (ensures_written named _).bind ?_
  rintro _ _ - - rfl
  exact stepsTo_fail named all _ _

theorem over_returned {rules own n : Nat} {finished : Frame}
    (ranges : finished.Over (Variable.Made source rules own)) (bound : n ≤ own) :
    (returned finished n).Over (Variable.Made source rules own) :=
  Term.over_bind fun v inside =>
    Term.over_var.mpr (.result (over_instantiated ranges v inside) bound)

theorem stepsTo_complete (named : watch.IsNamed source since) {intention : Intention}
    {finished : Frame} {below : List Frame}
    (all : AllKnown (watch.Known source) (finished :: below)) :
    StepsTo source since watch (finished :: below) (complete intention finished below) := by
  obtain ⟨finishedOver, belowKnown⟩ := allKnown_cons.mp all
  unfold complete
  split
  next goal caller others waits =>
    refine (ensures_freshNumber named).bind ?_
    rintro n fresh later named' ⟨rfl, -⟩
    refine (ensures_get named').bind ?_
    rintro _ _ - - ⟨rfl, rfl⟩
    have belowLater := belowKnown.mono later.known
    obtain ⟨callerOver, othersKnown⟩ := allKnown_cons.mp belowLater
    have finishedLater := finishedOver.mono later.known
    dsimp only
    split
    next bindings unified =>
      have bindingsOver := callerOver.bindings.unify? (finishedLater.goal goal waits)
        (over_returned finishedLater (Nat.le_refl _)) unified
      have callerLater : Frame.Over (fresh.Known source) { caller with bindings } :=
        { callerOver with bindings := bindingsOver }
      exact ensures_pure named'
        ⟨.returned bindings, allKnown_cons.mpr ⟨callerLater, othersKnown⟩⟩
    next =>
      refine (ensures_written named' _).bind ?_
      rintro _ _ - - rfl
      refine (ensures_fail named' belowLater _ _).mono ?_
      rintro ⟨live, next⟩ after - ⟨dropped | handles, nextKnown⟩
      · exact ⟨dropped ▸ .emptied, nextKnown⟩
      · exact ⟨.handled (.under finished handles), nextKnown⟩
  next => exact ensures_pure named ⟨.ended, belowKnown⟩

theorem ensures_attempt (named : watch.IsNamed source since) {θ : Substitution} {task : Task}
    (own : θ.Over (watch.Known source)) (ranges : ∀ v ∈ task.vars, watch.Known source v) :
    Ensures source since watch (attempt θ task) fun result after =>
      ∀ effect, result = .ok effect → effect.Follows (after.Known source) θ task := by
  refine Ensures.tryCatch ?_ ?_
  · refine (executes named own ranges).bind fun effect after _ named' follows => ?_
    exact ensures_pure named' fun _ same => Except.ok.inj same ▸ follows
  · intro fault after _ named'
    split
    next => exact ensures_pure named' fun _ same => by cases same
    next => exact ensures_throw named' fault

/-- A step moves the stack and brings in known variables only. -/
theorem stepsTo_step (named : watch.IsNamed source since) {intention : Intention}
    (all : AllKnown (watch.Known source) intention.frames) :
    StepsTo source since watch intention.frames (step intention) := by
  unfold step
  split
  next empty => exact ensures_pure named ⟨empty ▸ .emptied, all⟩
  next frame below shape =>
    have stackKnown : AllKnown (watch.Known source) (frame :: below) := shape ▸ all
    have frameOver := stackKnown frame List.mem_cons_self
    split
    next => exact shape ▸ stepsTo_complete named stackKnown
    next task tasks left =>
      have failing {watch : Watch} (named : watch.IsNamed source since)
          (known : AllKnown (watch.Known source) intention.frames) (reason : String) :
          StepsTo source since watch intention.frames
            (failAt { intention with steps := intention.steps + 1 } task reason) :=
        @stepsTo_failAt source since watch named
          { intention with steps := intention.steps + 1 } known task reason
      refine (ensures_get named).bind ?_
      rintro _ _ - - ⟨rfl, rfl⟩
      dsimp only
      split
      next =>
        refine (ensures_written named _).bind ?_
        rintro _ _ - - rfl
        exact failing named all _
      next =>
        have taskOver := frameOver.tasks task (left ▸ List.mem_cons_self)
        refine (ensures_attempt named frameOver.bindings taskOver).bind ?_
        intro result after later named' own
        have knownLater := stackKnown.mono later.known
        split
        next => exact failing named' (all.mono later.known) _
        next => exact failing named' (all.mono later.known) _
        next bindings inserted =>
          have proceeded := (own _ rfl).known_proceeded knownLater left
          exact ensures_pure named' ⟨shape ▸ .proceeded bindings _, proceeded⟩
        next callee =>
          have called := (own _ rfl).known_called knownLater left
          rcases own _ rfl with _ | _ | ⟨-, calledBy⟩
          exact ensures_pure named' ⟨shape ▸ .called left calledBy, called⟩

end Watch

end AgentSpeak
