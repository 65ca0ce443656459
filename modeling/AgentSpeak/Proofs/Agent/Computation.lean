import AgentSpeak.Agent.Basic

namespace AgentSpeak.Agent

variable {σ α β : Type}

theorem run_bind (computation : ExceptT Fault (StateM σ) α) (next : α → ExceptT Fault (StateM σ) β)
    (state : σ) : (computation >>= next).run.run state =
      match computation.run.run state with
      | (.ok value, after) => (next value).run.run after
      | (.error fault, after) => (.error fault, after) := by
  have unfolded : (computation >>= next).run.run state =
    match computation.run.run state with
    | (outcome, after) => (ExceptT.bindCont next outcome : StateM σ _).run after := rfl
  rcases outcome : computation.run.run state with ⟨fault | value, after⟩ <;>
    rw [unfolded, outcome] <;> rfl

/-- A computation that has a result got one from its first part. -/
theorem exists_of_run_bind {computation : ExceptT Fault (StateM σ) α}
    {next : α → ExceptT Fault (StateM σ) β} {state after : σ} {value : β}
    (ran : (computation >>= next).run.run state = (.ok value, after)) :
    ∃ middle between, computation.run.run state = (.ok middle, between) ∧
      (next middle).run.run between = (.ok value, after) := by
  rw [run_bind] at ran
  rcases outcome : computation.run.run state with ⟨fault | middle, between⟩
  · rw [outcome] at ran
    cases ran
  · rw [outcome] at ran
    exact ⟨middle, between, rfl, ran⟩

theorem run_tryCatch (computation : ExceptT Fault (StateM σ) α)
    (handler : Fault → ExceptT Fault (StateM σ) α) (state : σ) :
    (tryCatch computation handler).run.run state =
      match computation.run.run state with
      | (.ok value, after) => (.ok value, after)
      | (.error fault, after) => (handler fault).run.run after := by
  rcases outcome : computation.run.run state with ⟨fault | value, after⟩
  · have started : computation state = (.error fault, after) := outcome
    simp only [tryCatch, tryCatchThe, MonadExceptOf.tryCatch, ExceptT.tryCatch, ExceptT.run,
      ExceptT.mk, bind, StateT.bind, StateT.run, started]
  · have started : computation state = (.ok value, after) := outcome
    simp only [tryCatch, tryCatchThe, MonadExceptOf.tryCatch, ExceptT.tryCatch, ExceptT.run,
      ExceptT.mk, bind, StateT.bind, StateT.run, started]
    rfl

end AgentSpeak.Agent
