import AgentSpeak.Proofs.Agent.Reachable

/-!
Frames that wait. A frame that has called another one stays as it is, whatever runs, fails and is
handled above it, until the stack is down to it again; and every frame that is to return something
was called by the frame below it.
-/

namespace AgentSpeak.Agent

/-- A frame with a literal that is to return something for a goal lies right above others. -/
def Pending (frames : List Frame) (goal literal : Term) (below : List Frame) : Prop :=
  ∃ above callee, frames = above ++ callee :: below ∧ callee.callerGoal = some goal ∧
    callee.literal = literal

variable {frames later below others : List Frame} {frame other : Frame} {goal literal : Term}

theorem pending_cons : Pending (frame :: frames) goal literal below ↔
    (frames = below ∧ frame.callerGoal = some goal ∧ frame.literal = literal) ∨
      Pending frames goal literal below := by
  constructor
  · rintro ⟨above, callee, split, waits, same⟩
    cases above with
    | nil =>
      obtain ⟨rfl, rfl⟩ := List.cons.inj split
      exact .inl ⟨rfl, waits, same⟩
    | cons first above =>
      obtain ⟨rfl, rfl⟩ := List.cons.inj split
      exact .inr ⟨above, callee, rfl, waits, same⟩
  · rintro (⟨rfl, waits, same⟩ | ⟨above, callee, rfl, waits, same⟩)
    · exact ⟨[], frame, rfl, waits, same⟩
    · exact ⟨frame :: above, callee, rfl, waits, same⟩

/-- Only the goal and the literal of a frame count. -/
theorem Pending.replace (pending : Pending (other :: frames) goal literal below)
    (waits : other.callerGoal = frame.callerGoal) (same : other.literal = frame.literal) :
    Pending (frame :: frames) goal literal below := by
  rw [pending_cons] at pending ⊢
  rwa [← waits, ← same]

theorem Pending.length_lt (pending : Pending frames goal literal below) :
    below.length < frames.length := by
  obtain ⟨above, callee, rfl, -, -⟩ := pending
  simp
  omega

/-- Below the handling frame nothing is new. -/
theorem Handles.exists_kept (handles : Handles frames later) :
    ∃ handler base, later = handler :: base ∧ base <:+ frames := by
  induction handles with
  | here failed waits => exact ⟨_, _, rfl, List.suffix_cons _ _⟩
  | under failed handles ih =>
    obtain ⟨handler, base, rfl, kept⟩ := ih
    exact ⟨handler, base, rfl, kept.trans (List.suffix_cons _ _)⟩

theorem Handles.pending (handles : Handles frames later) (now : Pending later goal literal below) :
    Pending frames goal literal below := by
  induction handles with
  | here failed waits =>
    rcases pending_cons.mp now with ⟨-, waits', -⟩ | under
    · rw [waits] at waits'
      cases waits'
    · exact pending_cons.mpr (.inr under)
  | under failed handles ih => exact pending_cons.mpr (.inr (ih now))

/-- Frames below those that a step works on stay as they are. -/
theorem Moves.suffix (moves : Moves frames later) (kept : below <:+ frames)
    (covered : below.length < frames.length) (still : below.length < later.length) :
    below <:+ later := by
  have from_base {base : List Frame} (old : base <:+ frames) (new : base <:+ later)
      (long : below.length ≤ base.length) : below <:+ later :=
    (List.suffix_of_suffix_length_le kept old long).trans new
  cases moves with
  | emptied => simp at still
  | ended => exact from_base (List.suffix_cons _ _) List.suffix_rfl (Nat.le_of_lt still)
  | returned bindings =>
    exact from_base ⟨[_, _], rfl⟩ (List.suffix_cons _ _) (Nat.le_of_lt_succ still)
  | proceeded bindings tasks =>
    exact from_base (List.suffix_cons _ _) (List.suffix_cons _ _) (Nat.le_of_lt_succ still)
  | called left calls =>
    exact from_base (List.suffix_cons _ _) ⟨[_, _], rfl⟩ (Nat.le_of_lt_succ covered)
  | handled handles =>
    obtain ⟨handler, base, rfl, kept⟩ := handles.exists_kept
    exact from_base kept (List.suffix_cons _ _) (Nat.le_of_lt_succ still)

/-- After a step, a frame that is to return something lay there before, or it is the first one and
the next one has called it. -/
theorem Moves.pending (moves : Moves frames later) (now : Pending later goal literal below) :
    Pending frames goal literal below ∨ ∃ frame task tasks callee others,
      frames = frame :: others ∧ frame.tasks = task :: tasks ∧ later = callee :: below ∧
        below = { frame with tasks } :: others ∧ CalledBy frame.bindings task goal callee ∧
          callee.literal = literal := by
  cases moves with
  | emptied =>
    obtain ⟨above, callee, split, -, -⟩ := now
    simp at split
  | ended => exact .inl (pending_cons.mpr (.inr now))
  | returned bindings => exact .inl (pending_cons.mpr (.inr (now.replace rfl rfl)))
  | proceeded bindings tasks => exact .inl (now.replace rfl rfl)
  | called left calls =>
    rcases pending_cons.mp now with ⟨rfl, waits, same⟩ | under
    · -- Nobody but the new first frame waits for a new goal.
      obtain rfl : _ = goal := Option.some.inj (calls.waits.symm.trans waits)
      exact .inr ⟨_, _, _, _, _, rfl, left, rfl, rfl, calls, same⟩
    · exact .inl (under.replace rfl rfl)
  | handled handles => exact .inl (handles.pending now)

/-- Since a frame was called for a goal, its caller has waited above the same frames. -/
inductive Calling (source : Variable → Prop) (limits : Limits) (environment : ActionTable → Prop)
    (caller : Frame) (others : List Frame) (goal literal : Term) : Agent → Intention → Prop where
  /-- The caller calls a frame for the goal of its task and keeps the tasks behind it. -/
  | called (before : Reachable source limits environment agent (some intention))
      (shape : intention.frames = { caller with tasks := task :: caller.tasks } :: others)
      (done : (step intention).run.run agent = (.ok (true, next), after))
      (pushed : next.frames = callee :: caller :: others)
      (calls : CalledBy caller.bindings task goal callee) (same : callee.literal = literal) :
      Calling source limits environment caller others goal literal after next
  /-- Something still runs above the caller. -/
  | turned (before : Calling source limits environment caller others goal literal agent intention)
      (turn : Turn source environment agent (some intention) after (some next))
      (still : others.length + 1 < next.frames.length) :
      Calling source limits environment caller others goal literal after next

variable {source : Variable → Prop} {limits : Limits} {environment : ActionTable → Prop}
  {caller : Frame} {agent after : Agent} {intention next : Intention} {current : Option Intention}

theorem Calling.reachable
    (calling : Calling source limits environment caller others goal literal agent intention) :
    Reachable source limits environment agent (some intention) := by
  induction calling with
  | called before shape done pushed calls same => exact before.turned (.stepped done)
  | turned before turn still ih => exact ih.turned turn

/-- The frame that waits is still the one that called, above the same frames. -/
theorem Calling.frozen (replies : ∀ actions, environment actions → actions.RepliesGround)
    (calling : Calling source limits environment caller others goal literal agent intention) :
    caller :: others <:+ intention.frames ∧ others.length + 1 < intention.frames.length := by
  induction calling with
  | called before shape done pushed calls same => simp [pushed]
  | @turned agent intention after next before turn still ih =>
    obtain ⟨kept, covered⟩ := ih
    refine ⟨?_, still⟩
    cases turn with
    | varied => exact kept
    | noted => exact kept
    | stepped done => exact (before.reachable.moves replies done).suffix kept covered still

/-- Every frame that is to return something was called by the frame below it, which has waited
since. -/
theorem Reachable.calling (replies : ∀ actions, environment actions → actions.RepliesGround)
    (reachable : Reachable source limits environment agent current)
    (same : current = some intention)
    (pending : Pending intention.frames goal literal below) :
    ∃ caller others, below = caller :: others ∧
      Calling source limits environment caller others goal literal agent intention := by
  induction reachable generalizing intention below with
  | created => cases same
  | turned before turn ih =>
    subst same
    cases turn with
    | varied acts stream =>
      obtain ⟨caller, others, rfl, calling⟩ := ih rfl pending
      exact ⟨caller, others, rfl, calling.turned (.varied acts stream) pending.length_lt⟩
    | noted begun journal =>
      obtain ⟨caller, others, rfl, calling⟩ := ih rfl pending
      exact ⟨caller, others, rfl, calling.turned (.noted begun journal) pending.length_lt⟩
    | began queued chosen begun =>
      have started := Watch.isNamed_started (before.inOrder replies).named
      obtain ⟨_, named, own⟩ :=
        (Watch.ensures_choice started queued).of_run (Watch.erases_selectPlan _ none) chosen
      obtain ⟨frameOver, answers⟩ := own _ rfl _ rfl
      obtain ⟨_, -, own'⟩ :=
        (Watch.ensures_begin named frameOver).of_run (Watch.erases_quietly _) begun
      rw [(own' _ rfl).1, pending_cons, answers.waits] at pending
      rcases pending with ⟨-, waits, -⟩ | under
      · cases waits
      · exact absurd under.length_lt (Nat.not_lt_zero _)
    | stepped done =>
      rcases (before.moves replies done).pending pending with old | new
      · obtain ⟨caller, others, rfl, calling⟩ := ih rfl old
        exact ⟨caller, others, rfl, calling.turned (.stepped done) pending.length_lt⟩
      · obtain ⟨frame, task, tasks, callee, others, shape, left, pushed, rfl, calls, same⟩ := new
        refine ⟨_, _, rfl, .called before ?_ done pushed calls same⟩
        rw [shape, ← left]

end AgentSpeak.Agent
