import AgentSpeak.Proofs.Agent.Naming

namespace AgentSpeak.Watch

variable {α β : Type} {source : Variable → Prop} {since : Nat} {watch : Watch}
  {watched : WatchM α} {computation : AgentM α} {post other : α → Watch → Prop}

/-- From an agent that is watched, a computation keeps the names in order, and its result has a
property together with what it leaves. -/
structure Ensures (source : Variable → Prop) (since : Nat) (watch : Watch) (watched : WatchM α)
    (post : α → Watch → Prop) : Prop where
  later : watch.Precedes (watched.run.run watch).2
  named : (watched.run.run watch).2.IsNamed source since
  result : ∀ value, (watched.run.run watch).1 = .ok value → post value (watched.run.run watch).2

theorem Ensures.mono (ensures : Ensures source since watch watched post)
    (weaker : ∀ value after, watch.Precedes after → post value after → other value after) :
    Ensures source since watch watched other :=
  ⟨ensures.later, ensures.named, fun value done =>
    weaker value _ ensures.later (ensures.result value done)⟩

/-- What is ensured of a watched computation holds of a run that nobody watches. -/
theorem Ensures.of_run {agent after : Agent} {outcome : Except Fault α} {applied : List Application}
    (ensures : Ensures source since ⟨agent, applied⟩ watched post)
    (erases : Erases watched computation) (ran : computation.run.run agent = (outcome, after)) :
    ∃ applied, IsNamed source since ⟨after, applied⟩ ∧
      ∀ value, outcome = .ok value → post value ⟨after, applied⟩ := by
  obtain ⟨-, named, result⟩ := ensures
  have same := erases ⟨agent, applied⟩
  rw [ran] at same
  rcases whole : watched.run.run ⟨agent, applied⟩ with ⟨ending, last⟩
  rw [whole] at same named result
  cases same
  exact ⟨last.applied, named, result⟩

theorem ensures_pure (named : watch.IsNamed source since) {value : α} (own : post value watch) :
    Ensures source since watch (pure value) post :=
  ⟨.refl _, named, fun _ same => Except.ok.inj same ▸ own⟩

theorem ensures_quietly_pure (named : watch.IsNamed source since) {value : α}
    (own : post value watch) : Ensures source since watch (quietly (pure value)) post :=
  ensures_pure named own

theorem ensures_throw (named : watch.IsNamed source since) (fault : Fault) :
    Ensures source since watch (quietly (throw fault)) post :=
  ⟨.refl _, named, fun _ same => by cases same⟩

theorem ensures_get (named : watch.IsNamed source since) :
    Ensures source since watch (quietly get) fun agent after => watch.agent = agent ∧ watch = after :=
  ⟨.refl _, named, fun _ same => ⟨Except.ok.inj same, rfl⟩⟩

theorem ensures_modify {change : Agent → Agent} (named : watch.IsNamed source since)
    (changed : (change watch.agent).IsNamed source)
    (rules : (change watch.agent).beliefs.renamings = watch.agent.beliefs.renamings)
    (own : watch.agent.renamings ≤ (change watch.agent).renamings) :
    Ensures source since watch (quietly (modify change))
      fun _ after => { watch with agent := change watch.agent } = after :=
  ⟨⟨rules.ge, own⟩, named.withAgent changed rules own, fun _ _ => rfl⟩

theorem ensures_ofExcept (named : watch.IsNamed source since) (result : Except Fault α) :
    Ensures source since watch (quietly (Agent.ofExcept result))
      fun value after => result = .ok value ∧ watch = after :=
  ⟨.refl _, named, fun _ same => ⟨same, rfl⟩⟩

theorem Ensures.bind {next : α → WatchM β} {post : β → Watch → Prop}
    (first : Ensures source since watch watched other)
    (rest : ∀ value after, watch.Precedes after → after.IsNamed source since → other value after →
      Ensures source since after (next value) post) :
    Ensures source since watch (watched >>= next) post := by
  obtain ⟨later, named, result⟩ := first
  have whole := Agent.run_bind watched next watch
  rcases outcome : watched.run.run watch with ⟨fault | value, after⟩
  · rw [outcome] at later named whole
    exact ⟨whole ▸ later, whole ▸ named, fun value done => by rw [whole] at done; cases done⟩
  · rw [outcome] at later named whole result
    have step := rest value after later named (result value rfl)
    exact ⟨whole ▸ later.trans step.later, whole ▸ step.named, whole ▸ step.result⟩

theorem run_quietly (computation : AgentM α) (watch : Watch) :
    (quietly computation).run.run watch = ((computation.run.run watch.agent).1,
      { watch with agent := (computation.run.run watch.agent).2 }) :=
  rfl

theorem quietly_bind (computation : AgentM α) (next : α → AgentM β) :
    quietly (computation >>= next) = quietly computation >>= fun value => quietly (next value) := by
  funext watch
  show (quietly (computation >>= next)).run.run watch =
    (quietly computation >>= fun value => quietly (next value)).run.run watch
  rw [Agent.run_bind, run_quietly, run_quietly, Agent.run_bind]
  rcases computation.run.run watch.agent with ⟨fault | value, after⟩ <;> rfl

/-- A sequence of computations that apply no rules. -/
theorem Ensures.next {next : α → AgentM β} {post : β → Watch → Prop}
    (first : Ensures source since watch (quietly computation) other)
    (rest : ∀ value after, watch.Precedes after → after.IsNamed source since → other value after →
      Ensures source since after (quietly (next value)) post) :
    Ensures source since watch (quietly (computation >>= next)) post := by
  rw [quietly_bind]
  exact first.bind rest

theorem Ensures.tryCatch {handler : Fault → WatchM α}
    (ensures : Ensures source since watch watched post)
    (caught : ∀ fault after, watch.Precedes after → after.IsNamed source since →
      Ensures source since after (handler fault) post) :
    Ensures source since watch (tryCatch watched handler) post := by
  obtain ⟨later, named, result⟩ := ensures
  have whole := Agent.run_tryCatch watched handler watch
  rcases outcome : watched.run.run watch with ⟨fault | value, after⟩
  · rw [outcome] at later named whole
    have step := caught fault after later named
    exact ⟨whole ▸ later.trans step.later, whole ▸ step.named, whole ▸ step.result⟩
  · rw [outcome] at later named whole result
    exact ⟨whole ▸ later, whole ▸ named, whole ▸ result⟩

/-- A computation for each item of a list. -/
theorem ensures_forM {items : List β} {each : β → AgentM PUnit}
    (named : watch.IsNamed source since)
    (valid : ∀ item ∈ items, ∀ watch : Watch, watch.IsNamed source since →
      Ensures source since watch (quietly (each item)) fun _ _ => True) :
    Ensures source since watch (quietly (items.forM each)) fun _ _ => True := by
  induction items generalizing watch with
  | nil => exact ensures_quietly_pure named trivial
  | cons item rest ih =>
    show Ensures source since watch (quietly (each item >>= fun _ => rest.forM each)) _
    refine (valid item List.mem_cons_self watch named).next fun _ after _ named' _ => ?_
    exact ih named' fun other member => valid other (List.mem_cons_of_mem _ member)

/-- The results of computations that leave the agent as it is. -/
theorem ensures_mapM {items : List β} {each : β → AgentM α} {valid : α → Prop}
    (named : watch.IsNamed source since)
    (own : ∀ item ∈ items, Ensures source since watch (quietly (each item)) fun value after =>
      watch = after ∧ valid value) :
    Ensures source since watch (quietly (items.mapM each)) fun values after =>
      watch = after ∧ ∀ value ∈ values, valid value := by
  induction items with
  | nil => exact ensures_quietly_pure named ⟨rfl, by simp⟩
  | cons item rest ih =>
    rw [List.mapM_cons]
    refine (own item List.mem_cons_self).next ?_
    rintro value _ - - ⟨rfl, valueValid⟩
    refine (ih fun other member => own other (List.mem_cons_of_mem _ member)).next ?_
    rintro values _ - - ⟨rfl, valuesValid⟩
    exact ensures_quietly_pure named ⟨rfl, List.forall_mem_cons.mpr ⟨valueValid, valuesValid⟩⟩

end AgentSpeak.Watch
