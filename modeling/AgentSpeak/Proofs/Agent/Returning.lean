import AgentSpeak.Proofs.Agent.Waiting
import AgentSpeak.Proofs.Substitution.Resolution
import AgentSpeak.Proofs.Unification.Matching
import AgentSpeak.Proofs.Unification.Run

/-!
Results of subgoals. A frame that was called and has ended always returns its result: the caller's
bindings go on with new values for the unbound variables of the goal, and these values have no
variable that the caller knows.
-/

namespace AgentSpeak

namespace Variable

theorem hide_injective : Function.Injective hide := by
  intro v w same
  obtain ⟨base, marks⟩ := v
  obtain ⟨other, more⟩ := w
  simpa [hide] using same

/-- The name of a finished frame's variable for the caller, with the number of the renaming. -/
def forCaller (n : Nat) (v : Variable) : Variable :=
  v.hide.mark ["c" ++ toString n]

theorem forCaller_injective (n : Nat) : Function.Injective (forCaller n) :=
  (mark_injective _).comp hide_injective

end Variable

namespace Frame

/-- A frame of known variables has no name that is still to come. -/
theorem Over.not_mentions {frame : Frame} {k n : Nat} (ranges : frame.Over (Variable.IsSettled k))
    (later : k < n) (v : Variable) : ¬ frame.Mentions (v.forCaller n) := by
  intro mentions
  have settled := ranges.of_mentions mentions
  have bound := (v.hide.mark_result_settled_iff n k).mp settled
  omega

/-- The value that a finished frame returns for a variable of the goal, which was renamed for it. -/
def valueFor (finished : Frame) (marks : List String) (n : Nat) (v : Variable) : Term :=
  (finished.bindings.apply (.var (v.mark marks))).bind fun w => .var (w.forCaller n)

theorem exists_of_mem_valueFor {finished : Frame} {marks : List String} {n : Nat} {v w : Variable}
    (occurs : w ∈ (finished.valueFor marks n v).vars) : ∃ u : Variable, w = u.forCaller n := by
  obtain ⟨u, -, same⟩ := Term.mem_vars_bind.mp occurs
  exact ⟨u, List.mem_singleton.mp same⟩

end Frame

namespace Agent

variable {source : Variable → Prop} {limits : Limits} {environment : ActionTable → Prop}
  {agent : Agent} {intention : Intention} {caller finished : Frame} {others : List Frame} {goal literal : Term}

theorem Calling.resolved
    (calling : Calling source limits environment caller others goal literal agent intention) :
    ∃ written, caller.bindings.resolve written = .ok goal := by
  induction calling with
  | called before shape done pushed calls same =>
    obtain ⟨written, -, resolved⟩ := calls.asks
    exact ⟨written, resolved⟩
  | turned before turn still ih => exact ih

theorem Calling.renamed
    (calling : Calling source limits environment caller others goal literal agent intention) :
    ∃ n : Nat, literal = goal.mark ["e" ++ toString n] := by
  induction calling with
  | called before shape done pushed calls same => exact same ▸ calls.renamed
  | turned before turn still ih => exact ih

/-- What a finished frame returns is an instance of the goal that its caller waits for. -/
theorem returned_eq_bind {marks : List String} (renamed : finished.literal = goal.mark marks)
    (n : Nat) : returned finished n = goal.bind (finished.valueFor marks n) := by
  rw [returned, Frame.instantiated, renamed, Substitution.apply_eq_bind, Term.mark, Term.bind_bind,
    Term.bind_bind]
  rfl

/-- The step that ends a frame returns its result, if the goal that the caller waits for unifies
with it. -/
theorem step_returns {bindings : Substitution}
    (shape : intention.frames = finished :: caller :: others) (ended : finished.tasks = [])
    (waits : finished.callerGoal = some goal)
    (unified : caller.bindings.unify? agent.limits.occursCheck goal
      (returned finished (agent.renamings + 1)) = some bindings) :
    (step intention).run.run agent =
      (.ok (true, intention.withFrames ({ caller with bindings } :: others)),
        { agent with renamings := agent.renamings + 1 }) := by
  have fresh : freshNumber.run.run agent =
      (.ok (agent.renamings + 1), { agent with renamings := agent.renamings + 1 }) := rfl
  have limited : (get : AgentM Agent).run.run { agent with renamings := agent.renamings + 1 } =
      (.ok { agent with renamings := agent.renamings + 1 },
        { agent with renamings := agent.renamings + 1 }) := rfl
  simp only [step, shape, ended, complete, waits, run_bind, fresh, limited, unified]
  rfl

/-- What the caller of a finished frame gets for its goal: the frame's result, in which the
variables that the frame has left without a value have other names. -/
structure Returns (caller finished : Frame) (goal : Term) (bindings : Substitution)
    (rename : Variable → Variable) : Prop where
  kept : bindings.Extends caller.bindings
  /-- New values are for variables of the goal, and they have no variable of the caller. -/
  added : ∀ v value, bindings.find? v = some value → caller.bindings.find? v = some value ∨
    v ∈ goal.vars ∧ caller.bindings.find? v = none ∧ value.Over fun w => ¬ caller.Mentions w
  unbound : finished.instantiated.Over fun v => finished.bindings.find? v = none
  injective : Function.Injective rename
  new : ∀ v, ¬ caller.Mentions (rename v)
  result : bindings.apply goal = finished.instantiated.bind fun v => .var (rename v)

/-- The result of a finished frame unifies with the goal that its caller waits for, and the caller
gets it. -/
theorem Calling.unifies
    (calling : Calling source limits environment caller others goal finished.literal agent intention)
    {k : Nat} (callerOver : caller.Over (Variable.IsSettled k))
    (finishedOver : finished.Over (Variable.IsSettled k)) (waits : finished.callerGoal = some goal)
    (callerAcyclic : caller.bindings.Acyclic) (finishedAcyclic : finished.bindings.Acyclic)
    {n : Nat} (later : k < n) (check : Bool) :
    ∃ bindings, caller.bindings.unify? check goal (returned finished n) = some bindings ∧
      Returns caller finished goal bindings (Variable.forCaller n) := by
  obtain ⟨written, resolved⟩ := calling.resolved
  obtain ⟨number, renamed⟩ := calling.renamed
  have unbound := callerAcyclic.unbound_of_resolve resolved
  have instantiated := returned_eq_bind renamed n
  have new (v : Variable) : ¬ caller.Mentions (v.forCaller n) := callerOver.not_mentions later v
  -- The result has only names that come after those of the caller and of the goal.
  have matchable : Substitution.Matchable caller.bindings goal
      (finished.valueFor ["e" ++ toString number] n) := by
    refine ⟨unbound, fun v member w occurs => ?_⟩
    obtain ⟨u, rfl⟩ := Frame.exists_of_mem_valueFor occurs
    constructor
    · cases found : caller.bindings.find? (u.forCaller n) with
      | none => rfl
      | some value => exact absurd (.bound found) (new u)
    · exact fun inside => finishedOver.not_mentions later u (.goal waits inside)
  obtain ⟨bindings, unified, matched, result⟩ := matchable.unify? check
  refine ⟨bindings, instantiated ▸ unified, ?_⟩
  refine ⟨matched.kept, ?_, ?_, Variable.forCaller_injective n, new, ?_⟩
  · intro v value found
    rcases matched.added v value found with old | ⟨member, rfl⟩
    · exact .inl old
    · refine .inr ⟨member, unbound v member, fun w occurs => ?_⟩
      obtain ⟨u, rfl⟩ := Frame.exists_of_mem_valueFor occurs
      exact new u
  · exact fun v occurs => finishedAcyclic.unbound_of_mem_apply occurs
  · rw [result, ← instantiated]
    rfl

/-- A frame that somebody waits for and that has ended was called by the frame below it, and the
next step gives its result to this caller, which is as it was when it called. -/
theorem Reachable.returns (replies : ∀ actions, environment actions → actions.RepliesGround)
    (reachable : Reachable Variable.IsWritten limits environment agent (some intention))
    (acyclic : ∀ frame ∈ intention.frames, frame.bindings.Acyclic) {below : List Frame}
    (shape : intention.frames = finished :: below) (ended : finished.tasks = [])
    (waits : finished.callerGoal = some goal) :
    ∃ caller others bindings rename, below = caller :: others ∧
      Calling Variable.IsWritten limits environment caller others goal finished.literal agent
        intention ∧
      (step intention).run.run agent =
        (.ok (true, intention.withFrames ({ caller with bindings } :: others)),
          { agent with renamings := agent.renamings + 1 }) ∧
      Returns caller finished goal bindings rename := by
  obtain ⟨caller, others, rfl, calling⟩ :=
    reachable.calling replies rfl ⟨[], finished, shape, waits, rfl⟩
  have settled : ∀ frame ∈ intention.frames, frame.Over (Variable.IsSettled agent.renamings) :=
    fun frame member => ((reachable.inOrder replies).known _ rfl frame member).mono
      fun _ made => made.settled fun _ => id
  have first : finished ∈ intention.frames := by simp [shape]
  have second : caller ∈ intention.frames := by simp [shape]
  obtain ⟨bindings, unified, returns⟩ :=
    calling.unifies (settled caller second) (settled finished first) waits
      (acyclic caller second) (acyclic finished first) (Nat.lt_succ_self _)
      agent.limits.occursCheck
  exact ⟨caller, others, bindings, _, rfl, calling, step_returns shape ended waits unified, returns⟩

/-- A plan for the goal `s` that asks for `g(X)`, and one for `g(X)` that has nothing to do. -/
def twoPlans : Program where
  beliefs := []
  rules := []
  goals := [.atom "s"]
  plans := [
    ⟨.goal (.atom "s"), .literal Term.truth, [.achieve (.compound "g" [.var ⟨"X", []⟩])], none⟩,
    ⟨.goal (.compound "g" [.var ⟨"X", []⟩]), .literal Term.truth, [], none⟩]

theorem isWritten_twoPlans : twoPlans.IsWritten := by
  refine ⟨?_, ?_, ?_⟩
  · intro rule member
    cases member
  · intro goal member v occurs
    rw [List.mem_singleton.mp member] at occurs
    cases occurs
  · intro plan member v occurs
    have onlyX : v ∈ [⟨"X", []⟩] := by
      rcases List.mem_pair.mp member with rfl | rfl <;> exact occurs
    rw [List.mem_singleton.mp onlyX]
    exact .inl ⟨rfl, by decide⟩

/-- The frame that has asked for `g(X)`. -/
def asking : Frame where
  plan := ⟨.goal (.atom "s"), .literal Term.truth,
    [.achieve (.compound "g" [.var ⟨"X", []⟩])], none⟩
  bindings := .empty
  literal := .atom "s"
  tasks := []
  callerGoal := none

/-- The frame that was asked for `g(X)`, where its own `X` has the value of the event's. -/
def asked : Frame where
  plan := ⟨.goal (.compound "g" [.var ⟨"X", []⟩]), .literal Term.truth, [], none⟩
  bindings := Substitution.empty.insert ⟨"X", []⟩ (.var ⟨"X", ["e2"]⟩)
  literal := .compound "g" [.var ⟨"X", ["e2"]⟩]
  tasks := []
  callerGoal := some (.compound "g" [.var ⟨"X", []⟩])

theorem reachable_asked : ∃ agent intention,
    Reachable Variable.IsWritten ⟨1, 2, true⟩ (Eq .empty) agent (some intention) ∧
      intention.frames = [asked, asking] := by
  have created : Reachable Variable.IsWritten ⟨1, 2, true⟩ (Eq .empty) _ none :=
    .created twoPlans isWritten_twoPlans.over rfl "a" 0 ⟨[], [], []⟩
  have began := created.turned (.began rfl rfl rfl)
  have called := began.turned (.stepped rfl)
  exact ⟨_, _, called, rfl⟩

theorem acyclic_asked : ∀ frame ∈ [asked, asking], frame.bindings.Acyclic := by
  intro frame member
  rcases List.mem_pair.mp member with rfl | rfl
  · exact Substitution.acyclic_single _ _ (by decide)
  · exact Substitution.acyclic_empty

/-- The frame that was asked for `g(X)` returns to the one that has asked. -/
theorem Reachable.returns_asked : ∃ agent intention,
    Reachable Variable.IsWritten ⟨1, 2, true⟩ (Eq .empty) agent (some intention) ∧
      intention.frames = [asked, asking] ∧
      ∃ caller others bindings rename, [asking] = caller :: others ∧
        Calling Variable.IsWritten ⟨1, 2, true⟩ (Eq .empty) caller others
          (.compound "g" [.var ⟨"X", []⟩]) asked.literal agent intention ∧
        (step intention).run.run agent =
          (.ok (true, intention.withFrames ({ caller with bindings } :: others)),
            { agent with renamings := agent.renamings + 1 }) ∧
        Returns caller asked (.compound "g" [.var ⟨"X", []⟩]) bindings rename := by
  obtain ⟨agent, intention, reachable, shape⟩ := reachable_asked
  refine ⟨agent, intention, reachable, shape, ?_⟩
  have replies : ∀ actions, ActionTable.empty = actions → actions.RepliesGround := by
    rintro _ rfl name action found
    cases found
  exact Reachable.returns replies reachable (shape ▸ acyclic_asked) shape rfl rfl

end Agent

end AgentSpeak
