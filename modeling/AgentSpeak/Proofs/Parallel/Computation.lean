import AgentSpeak.Agent.Cycle
import AgentSpeak.Proofs.Agent.Computation

/-!
Two agents that do the same side by side. They differ in what they report, and in how many
intentions have been begun, by them and by other agents. What an agent does depends on neither, so
the two get the same results and stay alike.
-/

namespace AgentSpeak.Agent

/-- The agent with other reports, and with another number of intentions. -/
def beside (agent : Agent) (begun : Nat) (log : List LogLine) : Agent :=
  { agent with intentions := begun, journal := { agent.journal with log } }

/-- Two outcomes with related values, or with the same fault. -/
inductive SameOutcome {α : Type} (same : α → α → Prop) :
    Except Fault α → Except Fault α → Prop where
  | ok (own : same value other) : SameOutcome same (.ok value) (.ok other)
  | error (fault : Fault) : SameOutcome same (.error fault) (.error fault)

theorem SameOutcome.eq {α : Type} {outcome other : Except Fault α}
    (same : SameOutcome Eq outcome other) : outcome = other := by
  cases same with
  | ok own => rw [own]
  | error fault => rfl

/-- From an agent and from the one beside it, two computations have related outcomes, and they leave
an agent and one beside it. -/
def Parallel {α : Type} (same : α → α → Prop)
    (computation other : AgentM α) : Prop :=
  ∀ (agent : Agent) (begun : Nat) (log : List LogLine),
    (∃ begun' log', (other.run.run (agent.beside begun log)).2 =
      (computation.run.run agent).2.beside begun' log') ∧
    SameOutcome same (computation.run.run agent).1
      (other.run.run (agent.beside begun log)).1

/-- A computation does the same to an agent and to the one beside it. -/
abbrev Indifferent {α : Type} (computation : AgentM α) : Prop :=
  Parallel Eq computation computation

variable {α β : Type} {same : α → α → Prop} {related : β → β → Prop}
  {computation other : AgentM α}

theorem parallel_pure {value twin : α} (own : same value twin) :
    Parallel same (pure value) (pure twin) :=
  fun _ begun log => ⟨⟨begun, log, rfl⟩, .ok own⟩

theorem indifferent_pure (value : α) : Indifferent (pure value) :=
  parallel_pure rfl

theorem parallel_throw (fault : Fault) : Parallel same (throw fault) (throw fault) :=
  fun _ begun log => ⟨⟨begun, log, rfl⟩, .error fault⟩

theorem indifferent_ofExcept (result : Except Fault α) : Indifferent (ofExcept result) := by
  intro agent begun log
  refine ⟨⟨begun, log, rfl⟩, ?_⟩
  show SameOutcome Eq result result
  cases result with
  | ok value => exact .ok rfl
  | error fault => exact .error fault

/-- A change that commutes with standing beside. -/
theorem parallel_modify {change change' : Agent → Agent}
    (commutes : ∀ agent begun log, ∃ begun' log', change' (beside agent begun log) =
      (change agent).beside begun' log') :
    Parallel Eq (modify change) (modify change') :=
  fun agent begun log => ⟨commutes agent begun log, .ok rfl⟩

/-- The two agents that are asked for are an agent and one beside it. -/
theorem Parallel.get {next next' : Agent → AgentM α}
    (rest : ∀ agent begun log, Parallel same (next agent) (next' (agent.beside begun log))) :
    Parallel same (MonadState.get >>= next) (MonadState.get >>= next') :=
  fun agent begun log => rest agent begun log agent begun log

theorem Parallel.bind {next next' : α → AgentM β} (first : Parallel same computation other)
    (rest : ∀ value twin, same value twin → Parallel related (next value) (next' twin)) :
    Parallel related (computation >>= next) (other >>= next') := by
  intro agent begun log
  obtain ⟨⟨begun', log', left⟩, outcomes⟩ := first agent begun log
  rw [run_bind, run_bind]
  generalize computation.run.run agent = one at left outcomes
  generalize other.run.run (agent.beside begun log) = two at left outcomes
  obtain ⟨outcome, after⟩ := one
  obtain ⟨outcome', after'⟩ := two
  dsimp only at left outcomes
  subst left
  cases outcomes with
  | ok own => exact rest _ _ own after begun' log'
  | error fault => exact ⟨⟨begun', log', rfl⟩, .error fault⟩

/-- Both go on with the same value. -/
theorem Parallel.onward {next next' : α → AgentM β} (first : Parallel Eq computation other)
    (rest : ∀ value, Parallel related (next value) (next' value)) :
    Parallel related (computation >>= next) (other >>= next') :=
  first.bind fun value _ own => own ▸ rest value

theorem Indifferent.bind {next next' : α → AgentM β} (first : Indifferent computation)
    (rest : ∀ value, Parallel related (next value) (next' value)) :
    Parallel related (computation >>= next) (computation >>= next') :=
  first.onward rest

theorem Indifferent.tryCatch {handler : Fault → AgentM α} (first : Indifferent computation)
    (caught : ∀ fault, Indifferent (handler fault)) :
    Indifferent (tryCatch computation handler) := by
  intro agent begun log
  obtain ⟨⟨begun', log', left⟩, outcomes⟩ := first agent begun log
  rw [run_tryCatch, run_tryCatch]
  generalize computation.run.run agent = one at left outcomes
  generalize computation.run.run (agent.beside begun log) = two at left outcomes
  obtain ⟨outcome, after⟩ := one
  obtain ⟨outcome', after'⟩ := two
  dsimp only at left outcomes
  subst left
  cases outcomes with
  | ok own => exact ⟨⟨begun', log', rfl⟩, .ok own⟩
  | error fault => exact caught fault after begun' log'

theorem indifferent_forM {items : List β} {each : β → AgentM PUnit}
    (one : ∀ item, Indifferent (each item)) : Indifferent (items.forM each) := by
  induction items with
  | nil => exact indifferent_pure _
  | cons item rest ih => exact (one item).bind fun _ => ih

theorem indifferent_mapM {items : List β} {each : β → AgentM α}
    (one : ∀ item, Indifferent (each item)) : Indifferent (items.mapM each) := by
  induction items with
  | nil => exact indifferent_pure _
  | cons item rest ih =>
    rw [List.mapM_cons]
    exact (one item).bind fun _ => ih.bind fun _ => indifferent_pure _

/-- What a computation does beside an agent, as one equation. -/
theorem Indifferent.run (indifferent : Indifferent computation) (agent : Agent) (begun : Nat)
    (log : List LogLine) : ∃ begun' log',
      computation.run.run (agent.beside begun log) =
        ((computation.run.run agent).1, (computation.run.run agent).2.beside begun' log') := by
  obtain ⟨⟨begun', log', left⟩, outcomes⟩ := indifferent agent begun log
  exact ⟨begun', log', Prod.ext outcomes.eq.symm left⟩

end AgentSpeak.Agent
