import AgentSpeak.Proofs.Agent.Computation
import AgentSpeak.Proofs.Variants.Beliefs

namespace AgentSpeak

/-- Two agents with the same facts whose rules, plans and events differ in the names of variables.
There is no environment with actions that could tell names apart, and no output stream that refuses
one name and not another. -/
structure Agent.Varies (agent other : Agent) : Prop where
  name : other.name = agent.name
  limits : other.limits = agent.limits
  stream : ∀ text, agent.stream text = none
  stream' : ∀ text, other.stream text = none
  actions : agent.actions = .empty
  actions' : other.actions = .empty
  plans : List.Forall₂ Plan.Varies agent.plans other.plans
  beliefs : agent.beliefs.Varies False other.beliefs
  events : List.Forall₂ Trigger.Varies agent.events other.events

/-- The numbers that two agents give to renamings have gone on. -/
structure Agent.Onwards (agent other after after' : Agent) : Prop where
  own : agent.renamings ≤ after.renamings
  own' : other.renamings ≤ after'.renamings
  rules : agent.beliefs.renamings ≤ after.beliefs.renamings
  rules' : other.beliefs.renamings ≤ after'.beliefs.renamings

namespace Stage

/-- No variable of a stage has a name that the two agents have still to make. -/
structure Serves (stage : Stage False) (agent other : Agent) : Prop where
  fits : stage.Fits agent.beliefs other.beliefs
  settled : stage.Both (Variable.IsSettled agent.renamings) (Variable.IsSettled other.renamings)

variable {stage later : Stage False} {agent other next next' : Agent}

theorem Serves.after (serves : stage.Serves agent other)
    (onwards : Agent.Onwards agent other next next') : stage.Serves next next' where
  fits := serves.fits.later onwards.rules onwards.rules'
  settled := serves.settled.mono (fun _ own => own.mono onwards.own)
    fun _ own => own.mono onwards.own'

/-- Renamings of rules make no names that the agents have still to make. -/
theorem Leads.serves (leads : stage.Leads later) (serves : stage.Serves agent other)
    (fits : later.Fits agent.beliefs other.beliefs) : later.Serves agent other where
  fits := fits
  settled v known := by
    rcases leads.numbered known with old | ⟨⟨w, n, rfl⟩, ⟨w', n', same⟩⟩
    · rw [leads.keeps.name old]
      exact serves.settled v old
    · rw [same]
      exact ⟨w.settled_mark_number n _, w'.settled_mark_number n' _⟩

end Stage

namespace Agent

variable {α β γ δ : Type} {agent other after after' last last' : Agent} {computation : AgentM α}
  {computation' : AgentM β} {post post' : α → β → Agent → Agent → Prop}

theorem Onwards.refl (agent other : Agent) : Onwards agent other agent other :=
  ⟨Nat.le_refl _, Nat.le_refl _, Nat.le_refl _, Nat.le_refl _⟩

theorem Onwards.trans (first : Onwards agent other after after')
    (second : Onwards after after' last last') : Onwards agent other last last' :=
  ⟨Nat.le_trans first.own second.own, Nat.le_trans first.own' second.own',
    Nat.le_trans first.rules second.rules, Nat.le_trans first.rules' second.rules'⟩

/-- From two agents, two computations leave agents that differ in names only. Either both have
results, which are related together with the agents left, or both fail in the same way. -/
structure Together (agent other : Agent) (computation : AgentM α) (computation' : AgentM β)
    (post : α → β → Agent → Agent → Prop) : Prop where
  onwards : Onwards agent other (computation.run.run agent).2 (computation'.run.run other).2
  varies : (computation.run.run agent).2.Varies (computation'.run.run other).2
  agree : Concur False (fun value value' =>
    post value value' (computation.run.run agent).2 (computation'.run.run other).2)
    (computation.run.run agent).1 (computation'.run.run other).1

theorem Together.mono (together : Together agent other computation computation' post)
    (weaker : ∀ value value' after after', Onwards agent other after after' →
      post value value' after after' → post' value value' after after') :
    Together agent other computation computation' post' := by
  refine ⟨together.onwards, together.varies, ?_⟩
  exact together.agree.mono fun _ _ own => weaker _ _ _ _ together.onwards own

theorem together_pure (varies : agent.Varies other) {value : α} {value' : β}
    (own : post value value' agent other) : Together agent other (pure value) (pure value') post :=
  ⟨.refl agent other, varies, .ok own⟩

theorem together_throw (varies : agent.Varies other) {fault fault' : Fault}
    (alike : fault.Alike False fault') : Together agent other (throw fault) (throw fault') post :=
  ⟨.refl agent other, varies, .error alike⟩

theorem together_modify {change change' : Agent → Agent}
    (varies : (change agent).Varies (change' other))
    (onwards : Onwards agent other (change agent) (change' other)) :
    Together agent other (modify change) (modify change') fun _ _ after after' =>
      after = change agent ∧ after' = change' other :=
  ⟨onwards, varies, .ok ⟨rfl, rfl⟩⟩

theorem together_ofExcept (varies : agent.Varies other) {related : α → β → Prop}
    {result : Except Fault α} {result' : Except Fault β}
    (agree : Concur False related result result') :
    Together agent other (ofExcept result) (ofExcept result') fun value value' after after' =>
      after = agent ∧ after' = other ∧ related value value' := by
  exact ⟨.refl agent other, varies, agree.mono fun _ _ own => ⟨rfl, rfl, own⟩⟩

/-- Both agents go on, or neither has a text for what it is about to write. -/
theorem Together.written (varies : agent.Varies other) {writable writable' : Bool}
    (same : writable' = writable) {next : Unit → AgentM α} {next' : Unit → AgentM β}
    (rest : Together agent other (next ()) (next' ()) post) :
    Together agent other (Agent.written writable >>= next) (Agent.written writable' >>= next')
      post := by
  subst same
  cases writable' with
  | false => exact ⟨.refl agent other, varies, .error (.refl _ _)⟩
  | true => exact ⟨rest.onwards, rest.varies, rest.agree⟩

/-- What both agents are asked for first is themselves. -/
theorem Together.get {next : Agent → AgentM α} {next' : Agent → AgentM β}
    (rest : Together agent other (next agent) (next' other) post) :
    Together agent other (MonadState.get >>= next) (MonadState.get >>= next') post :=
  ⟨rest.onwards, rest.varies, rest.agree⟩

theorem Together.bind {next : α → AgentM γ} {next' : β → AgentM δ}
    {end_ : γ → δ → Agent → Agent → Prop}
    (first : Together agent other computation computation' post)
    (rest : ∀ value value' after after', Onwards agent other after after' →
      after.Varies after' → post value value' after after' →
        Together after after' (next value) (next' value') end_) :
    Together agent other (computation >>= next) (computation' >>= next') end_ := by
  obtain ⟨onwards, varies, agree⟩ := first
  have whole := run_bind computation next agent
  have whole' := run_bind computation' next' other
  generalize computation.run.run agent = outcome at onwards varies agree whole
  generalize computation'.run.run other = outcome' at onwards varies agree whole'
  obtain ⟨result, after⟩ := outcome
  obtain ⟨result', after'⟩ := outcome'
  cases agree with
  | error alike =>
    refine ⟨?_, ?_, ?_⟩ <;> rw [whole, whole']
    · exact onwards
    · exact varies
    · exact .error alike
  | ok own =>
    have step := rest _ _ after after' onwards varies own
    refine ⟨?_, ?_, ?_⟩ <;> rw [whole, whole']
    · exact onwards.trans step.onwards
    · exact step.varies
    · exact step.agree

theorem Together.tryCatch {computation' : AgentM α} {post : α → α → Agent → Agent → Prop}
    {handler handler' : Fault → AgentM α}
    (first : Together agent other computation computation' post)
    (caught : ∀ fault fault' after after', Onwards agent other after after' →
      after.Varies after' → fault.Alike False fault' →
        Together after after' (handler fault) (handler' fault') post) :
    Together agent other (tryCatch computation handler) (tryCatch computation' handler') post := by
  obtain ⟨onwards, varies, agree⟩ := first
  have whole := run_tryCatch computation handler agent
  have whole' := run_tryCatch computation' handler' other
  generalize computation.run.run agent = outcome at onwards varies agree whole
  generalize computation'.run.run other = outcome' at onwards varies agree whole'
  obtain ⟨result, after⟩ := outcome
  obtain ⟨result', after'⟩ := outcome'
  cases agree with
  | error alike =>
    have step := caught _ _ after after' onwards varies alike
    refine ⟨?_, ?_, ?_⟩ <;> rw [whole, whole']
    · exact onwards.trans step.onwards
    · exact step.varies
    · exact step.agree
  | ok own =>
    refine ⟨?_, ?_, ?_⟩ <;> rw [whole, whole']
    · exact onwards
    · exact varies
    · exact .ok own

/-- Computations for each item of a list. -/
theorem together_forM {items : List γ} {each each' : γ → AgentM PUnit}
    (varies : agent.Varies other)
    (one : ∀ item ∈ items, ∀ agent other : Agent, agent.Varies other →
      Together agent other (each item) (each' item) fun _ _ _ _ => True) :
    Together agent other (items.forM each) (items.forM each') fun _ _ _ _ => True := by
  induction items generalizing agent other with
  | nil => exact together_pure varies trivial
  | cons item rest ih =>
    refine Together.bind (one item List.mem_cons_self agent other varies) ?_
    intro _ _ after after' _ varies' _
    exact ih varies' fun next member => one next (List.mem_cons_of_mem _ member)

end Agent

end AgentSpeak
