import AgentSpeak.Proofs.Agent.Reachable

/-!
What a loop frees between its passes: the variables of its own text that had no value when it was
entered, and nothing else. A pass that binds a variable inside a structure from before the loop leaves
it bound.
-/

namespace AgentSpeak

variable {entries : Formula → List Statement → Substitution → Prop}

/-- The variables that a pending test of a loop frees are those of the loop that had no value under
bindings with which it can have been entered. -/
def Task.Remembers (entries : Formula → List Statement → Substitution → Prop) : Task → Prop
  | .statement _ => True
  | .retest condition body fresh => ∃ entered, entries condition body entered ∧
      fresh = Agent.freshVariables entered (.loop condition body)

theorem Task.remembers_ofStatements (statements : List Statement) :
    ∀ task ∈ Task.ofStatements statements, task.Remembers entries := by
  intro task member
  obtain ⟨step, -, rfl⟩ := List.mem_map.mp member
  trivial

namespace Agent

variable {α β : Type} {computation : AgentM α} {property : α → Prop} {agent after : Agent}

/-- A computation has results with a property only. -/
def Yields (property : α → Prop) (computation : AgentM α) : Prop :=
  ∀ agent value after, computation.run.run agent = (.ok value, after) → property value

theorem yields_pure {value : α} (own : property value) : Yields property (pure value) :=
  fun _ _ _ ran => Except.ok.inj (congrArg Prod.fst ran) ▸ own

theorem Yields.bind {next : α → AgentM β} {property' : β → Prop}
    (first : Yields property computation)
    (rest : ∀ value, property value → Yields property' (next value)) :
    Yields property' (computation >>= next) := by
  intro agent value after ran
  obtain ⟨middle, between, ran, ranNext⟩ := exists_of_run_bind ran
  exact rest middle (first agent middle between ran) between value after ranNext

/-- What is found on the way may be anything. -/
theorem yields_bind {next : α → AgentM β} {property : β → Prop}
    (rest : ∀ value, Yields property (next value)) : Yields property (computation >>= next) := by
  intro agent value after ran
  obtain ⟨middle, between, -, ranNext⟩ := exists_of_run_bind ran
  exact rest middle between value after ranNext

/-- All tasks of a stack of frames remember what their loops free. -/
def AllRemember (entries : Formula → List Statement → Substitution → Prop)
    (frames : List Frame) : Prop :=
  ∀ frame ∈ frames, ∀ task ∈ frame.tasks, task.Remembers entries

theorem allRemember_cons {frame : Frame} {frames : List Frame} :
    AllRemember entries (frame :: frames) ↔
      (∀ task ∈ frame.tasks, task.Remembers entries) ∧ AllRemember entries frames :=
  List.forall_mem_cons

/-- The tasks that an effect brings in remember what their loops free. -/
def Effect.Remembers (entries : Formula → List Statement → Substitution → Prop) : Effect → Prop
  | .failed => True
  | .proceeded _ inserted => ∀ task ∈ inserted, task.Remembers entries
  | .called callee => ∀ task ∈ callee.tasks, task.Remembers entries

theorem Effect.remembers_ofBindings (answer : Option Substitution) :
    (Effect.ofBindings answer).Remembers entries := by
  cases answer with
  | none => trivial
  | some θ => exact fun _ member => nomatch member

/-- A frame begins with the statements of its plan. -/
theorem yields_selectPlan (trigger : Trigger) (callerGoal : Option Term) :
    Yields (fun found => ∀ frame, found = some frame →
      frame.tasks = Task.ofStatements frame.plan.body) (selectPlan trigger callerGoal) := by
  refine yields_bind fun n => yields_bind fun agent => yields_bind fun found => ?_
  split
  next =>
    refine yields_pure ?_
    rintro _ ⟨⟩
  next plan bindings =>
    refine yields_bind fun _ => yields_bind fun _ => yields_pure ?_
    rintro _ ⟨⟩
    rfl

theorem yields_executeTestOfLoop {condition : Formula} {body : List Statement}
    {fresh : List Variable} (own : (Task.retest condition body fresh).Remembers entries)
    (θ : Substitution) :
    Yields (Effect.Remembers entries) (executeTestOfLoop θ condition body fresh) := by
  refine yields_bind fun found => ?_
  split
  next => exact yields_pure fun _ member => nomatch member
  next =>
    refine yields_pure fun task member => ?_
    rcases List.mem_append.mp member with inside | last
    · exact Task.remembers_ofStatements body task inside
    · exact List.mem_singleton.mp last ▸ own

theorem Effect.remembers_called {callee : Frame}
    (begins : callee.tasks = Task.ofStatements callee.plan.body) :
    (Effect.called callee).Remembers entries :=
  fun task member => Task.remembers_ofStatements callee.plan.body task (begins ▸ member)

theorem yields_achieve (θ : Substitution) (goal : Term) :
    Yields (Effect.Remembers entries) (execute θ (.statement (.achieve goal))) := by
  refine yields_bind fun goal => (yields_selectPlan _ _).bind fun found begins => ?_
  split
  next callee => exact yields_pure (Effect.remembers_called (begins callee rfl))
  next => exact yields_bind fun _ => yields_bind fun _ => yields_pure trivial

theorem yields_test (θ : Substitution) (goal : Term) :
    Yields (Effect.Remembers entries) (execute θ (.statement (.test goal))) := by
  refine yields_bind fun agent => yields_bind fun found => ?_
  split
  next => exact yields_pure fun _ member => nomatch member
  next =>
    refine yields_bind fun goal => (yields_selectPlan _ _).bind fun found begins => ?_
    split
    next callee => exact yields_pure (Effect.remembers_called (begins callee rfl))
    next => exact yields_pure trivial

/-- A loop that begins remembers what it is entered with, and no other task forgets that. -/
theorem yields_execute {task : Task} {θ : Substitution} (own : task.Remembers entries)
    (enters : ∀ condition body, task = .statement (.loop condition body) →
      entries condition body θ) :
    Yields (Effect.Remembers entries) (execute θ task) := by
  have proceeds (θ : Substitution) : (Effect.proceeded θ []).Remembers entries :=
    fun _ member => nomatch member
  cases task with
  | retest condition body fresh => exact yields_executeTestOfLoop own θ
  | statement step =>
    cases step with
    | achieve goal => exact yields_achieve θ goal
    | achieveLater goal => exact yields_bind fun _ => yields_bind fun _ => yields_pure (proceeds θ)
    | test goal => exact yields_test θ goal
    | add literal => exact yields_bind fun _ => yields_bind fun _ => yields_pure (proceeds θ)
    | remove literal =>
      refine yields_bind fun pattern => yields_bind fun agent => yields_bind fun found => ?_
      split
      next => exact yields_pure (proceeds _)
      next => exact yields_bind fun _ => yields_pure (proceeds _)
    | replace literal =>
      refine yields_bind fun fact => yields_bind fun agent => yields_bind fun removed => ?_
      refine yields_bind fun _ => ?_
      dsimp only
      split
      next => exact yields_pure (proceeds _)
      next => exact yields_bind fun _ => yields_pure (proceeds _)
    | action kind name arguments =>
      exact yields_bind fun _ => yields_pure (Effect.remembers_ofBindings _)
    | constraint relation left right =>
      exact yields_bind fun _ => yields_pure (Effect.remembers_ofBindings _)
    | branch condition positive negative =>
      refine yields_bind fun found => ?_
      split
      next => exact yields_pure (Task.remembers_ofStatements positive)
      next => exact yields_pure (Task.remembers_ofStatements negative)
    | loop condition body => exact yields_executeTestOfLoop ⟨θ, enters condition body rfl, rfl⟩ θ

theorem yields_unwind {frames : List Frame} (remember : AllRemember entries frames) :
    Yields (fun found => ∀ later, found = some later → AllRemember entries later) (unwind frames) := by
  induction frames with
  | nil =>
    refine yields_pure ?_
    rintro _ ⟨⟩
  | cons frame below ih =>
    obtain ⟨-, belowRemember⟩ := allRemember_cons.mp remember
    rw [unwind]
    split
    next =>
      refine (yields_selectPlan _ _).bind fun found begins => ?_
      split
      next handler =>
        refine yields_pure ?_
        rintro _ ⟨⟩
        refine allRemember_cons.mpr ⟨fun task member => ?_, belowRemember⟩
        exact Task.remembers_ofStatements _ task (begins handler rfl ▸ member)
      next => exact ih belowRemember
    next => exact ih belowRemember

theorem yields_fail {intention : Intention} (remember : AllRemember entries intention.frames)
    (place reason : String) :
    Yields (fun result => AllRemember entries result.2.frames) (fail intention place reason) := by
  refine yields_bind fun _ => (yields_unwind remember).bind fun found own => ?_
  split
  next later => exact yields_pure (own later rfl)
  next => exact yields_bind fun _ => yields_pure fun _ member => nomatch member

theorem yields_failAt {intention : Intention} (remember : AllRemember entries intention.frames)
    (task : Task) (reason : String) :
    Yields (fun result => AllRemember entries result.2.frames) (failAt intention task reason) :=
  yields_bind fun _ => yields_fail remember _ _

theorem yields_complete {intention : Intention} {finished : Frame} {below : List Frame}
    (remember : AllRemember entries below) :
    Yields (fun result => AllRemember entries result.2.frames) (complete intention finished below) := by
  unfold complete
  split
  next goal caller others waits =>
    refine yields_bind fun n => yields_bind fun agent => ?_
    dsimp only
    split
    next =>
      obtain ⟨own, othersRemember⟩ := allRemember_cons.mp remember
      exact yields_pure (allRemember_cons.mpr ⟨own, othersRemember⟩)
    next => exact yields_bind fun _ => yields_fail remember _ _
  next => exact yields_pure remember

theorem yields_attempt {task : Task} {θ : Substitution} (own : task.Remembers entries)
    (enters : ∀ condition body, task = .statement (.loop condition body) →
      entries condition body θ) :
    Yields (fun result => ∀ effect, result = .ok effect → effect.Remembers entries)
      (attempt θ task) := by
  intro agent result after ran effect same
  subst same
  rw [attempt, run_tryCatch] at ran
  split at ran
  next value between executed =>
    obtain ⟨first, _, executed, rest⟩ := exists_of_run_bind executed
    cases rest
    cases ran
    exact yields_execute own enters _ _ _ executed
  next =>
    split at ran
    next => cases ran
    next => cases ran

/-- No step forgets what a loop frees. -/
theorem yields_step {intention : Intention} (remember : AllRemember entries intention.frames)
    (enters : ∀ frame below condition body tasks, intention.frames = frame :: below →
      frame.tasks = .statement (.loop condition body) :: tasks →
        entries condition body frame.bindings) :
    Yields (fun result => AllRemember entries result.2.frames) (step intention) := by
  unfold step
  split
  next => exact yields_pure remember
  next frame below shape =>
    obtain ⟨own, belowRemember⟩ := allRemember_cons.mp (shape ▸ remember)
    split
    next => exact yields_complete belowRemember
    next task tasks left =>
      rw [left, List.forall_mem_cons] at own
      let counted : Intention := { intention with steps := intention.steps + 1 }
      have failing (reason : String) := @yields_failAt entries counted remember task reason
      refine yields_bind fun agent => ?_
      dsimp only
      split
      next => exact yields_bind fun _ => failing _
      next =>
        refine Yields.bind (yields_attempt own.1 fun condition body loops =>
          enters frame below condition body tasks shape (loops ▸ left)) fun result follows => ?_
        split
        next => exact failing _
        next => exact failing _
        next bindings inserted =>
          refine yields_pure (allRemember_cons.mpr ⟨fun other member => ?_, belowRemember⟩)
          rcases List.mem_append.mp member with new | old
          · exact follows _ rfl other new
          · exact own.2 other old
        next callee =>
          exact yields_pure (allRemember_cons.mpr
            ⟨follows _ rfl, allRemember_cons.mpr ⟨own.2, belowRemember⟩⟩)

variable {source : Variable → Prop} {limits : Limits} {environment : ActionTable → Prop}
  {intention : Intention} {frame : Frame} {below : List Frame} {condition : Formula} {body : List Statement}
  {fresh : List Variable} {tasks : List Task} {effect : Effect}

/-- Bindings of a frame that is about to begin a loop. -/
def CanEnter (source : Variable → Prop) (limits : Limits) (environment : ActionTable → Prop)
    (condition : Formula) (body : List Statement) (entered : Substitution) : Prop :=
  ∃ agent intention frame below tasks, Reachable source limits environment agent (some intention) ∧
    intention.frames = frame :: below ∧
      frame.tasks = .statement (.loop condition body) :: tasks ∧ frame.bindings = entered

theorem Reachable.remember {current : Option Intention}
    (reachable : Reachable source limits environment agent current) :
    ∀ intention, current = some intention →
      AllRemember (CanEnter source limits environment) intention.frames := by
  induction reachable with
  | created => exact fun _ same => nomatch same
  | turned before turn ih =>
    cases turn with
    | varied | noted => exact ih
    | asked | passed | stopped | ended => exact fun _ same => nomatch same
    | began queued chosen begun =>
      rintro _ ⟨⟩
      cases begun
      have begins := yields_selectPlan _ _ _ _ _ chosen _ rfl
      refine allRemember_cons.mpr ⟨fun task member => ?_, fun _ none => nomatch none⟩
      exact Task.remembers_ofStatements _ task (begins ▸ member)
    | stepped done =>
      rintro _ ⟨⟩
      refine yields_step (ih _ rfl) ?_ _ _ _ done
      intro frame below condition body tasks running next
      exact ⟨_, _, frame, below, tasks, before, running, next, rfl⟩

/-- A loop is tested again, and left, with bindings in which the variables of its text that had no
value when it was entered have none; all others have those that the last pass left them. -/
theorem Reachable.retests (reachable : Reachable source limits environment agent (some intention))
    (running : intention.frames = frame :: below)
    (next : frame.tasks = .retest condition body fresh :: tasks)
    (ran : (execute frame.bindings (.retest condition body fresh)).run.run agent =
      (.ok effect, after)) :
    ∃ entered tested : Substitution, CanEnter source limits environment condition body entered ∧
      (∀ v, tested.find? v =
        if v ∈ freshVariables entered (.loop condition body) then none
        else frame.bindings.find? v) ∧
      ∃ answer, (holds condition tested).run.run agent = (.ok answer, after) ∧
        effect = match answer with
          | none => .proceeded tested []
          | some extended =>
              .proceeded extended (Task.ofStatements body ++ [.retest condition body fresh]) := by
  have remember := reachable.remember _ rfl
  rw [running] at remember
  obtain ⟨own, -⟩ := allRemember_cons.mp remember
  rw [next, List.forall_mem_cons] at own
  obtain ⟨entered, enters, rfl⟩ := own.1
  let tested := frame.bindings.without (freshVariables entered (.loop condition body))
  have freed (v : Variable) := Substitution.find?_without frame.bindings
    (freshVariables entered (.loop condition body)) v
  obtain ⟨answer, between, held, rest⟩ := exists_of_run_bind ran
  refine ⟨entered, tested, enters, freed, answer, ?_⟩
  cases answer <;> cases rest <;> exact ⟨held, rfl⟩

/-- An intention about to begin a loop whose pass gives a value to a variable inside a structure. -/
def pinning : Intention where
  id := 1
  frames := [{
    plan := ⟨.goal (.atom "g"), .literal Term.truth, [], none⟩
    bindings := Substitution.empty.insert ⟨"X", []⟩ (.compound "f" [.var ⟨"Y", []⟩])
    literal := .atom "g"
    tasks := [.statement (.loop (.literal Term.truth)
      [.constraint .unify (.var ⟨"X", []⟩) (.compound "f" [.number (.int 1)])])]
    callerGoal := none }]
  steps := 0

/-- Not everything that a pass binds is free again: at the next test of this loop the variable still
has its value. -/
theorem retest_keeps_pinning : ∃ next frame after,
    (do step (← step pinning).2).run.run (idle "a" ⟨1000, 1000, true⟩ [] .empty 0) =
      (.ok (true, next), after) ∧ next.frames = [frame] ∧
    frame.tasks = [.retest (.literal Term.truth)
      [.constraint .unify (.var ⟨"X", []⟩) (.compound "f" [.number (.int 1)])] []] ∧
    frame.bindings.find? ⟨"Y", []⟩ = some (.number (.int 1)) :=
  ⟨_, _, _, rfl, rfl, rfl, rfl⟩

end Agent

end AgentSpeak
