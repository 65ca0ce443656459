import AgentSpeak.Agent.Cycle
import AgentSpeak.Proofs.Agent.Computation
import AgentSpeak.Proofs.Beliefs.Course

/-!
Agents that are watched. What an agent does with questions to its beliefs is written down a second
time, with a list of the rules that are applied; everything else goes on unnoticed. A watched agent
does what it does when nobody watches.
-/

namespace AgentSpeak

/-- An agent that is watched, and the rules that have been applied so far, in order. -/
structure Watch where
  agent : Agent
  applied : List Application

/-- A computation of an agent that is watched. -/
abbrev WatchM := ExceptT Fault (StateM Watch)

namespace Watch

open Agent (Effect)

/-- A computation that applies no rules. -/
def quietly {α : Type} (computation : AgentM α) : WatchM α :=
  ExceptT.mk fun watch =>
    let (outcome, agent) := computation.run.run watch.agent
    (outcome, { watch with agent })

/-- The outcome of a question to the beliefs, which notes the rules that it applies. -/
def searching {α : Type} (ask : BeliefBase → Except Fault α × BeliefBase × List Application) :
    WatchM α := do
  let (result, beliefs, applied) := ask (← get).agent.beliefs
  modify fun watch =>
    { agent := { watch.agent with beliefs }, applied := watch.applied ++ applied }
  quietly (Agent.ofExcept result)

def holds (formula : Formula) (θ : Substitution) : WatchM (Option Substitution) := do
  let course := Course.solve (← quietly get).limits formula θ
  searching (·.firstOf course)

def answers (formula : Formula) (θ : Substitution) : WatchM (List Substitution) := do
  let course := Course.solve (← quietly get).limits formula θ
  searching (·.answersOf course)

def query (formula : Formula) : WatchM (List (List (Variable × Term))) := do
  let found ← answers formula .empty
  return found.map fun θ => θ.restrict formula.namedVariables

def performCount (arguments : List Term) (θ : Substitution) : WatchM (Option Substitution) := do
  match arguments with
  | [query, target] =>
      let found ← answers (.literal (θ.apply query)) θ
      return Agent.bindTo target (.number (.int found.length)) θ
  | _ => quietly (throw (.wrongArity "count" 2))

def performFindall (arguments : List Term) (θ : Substitution) : WatchM (Option Substitution) := do
  match arguments with
  | [template, query, target] =>
      let goal := θ.apply query
      let found ← answers (.literal goal) θ
      quietly (Agent.written goal.isWritable)
      quietly (Agent.report .debug (".findall " ++ goal.render ++ s!": {found.length} solutions"))
      return Agent.bindTo target (.ofList (found.map (·.apply template)) Term.nil) θ
  | _ => quietly (throw (.wrongArity "findall" 3))

def performBuiltin (name : String) (arguments : List Term) (θ : Substitution) :
    WatchM (Option Substitution) :=
  match name with
  | "count" => performCount arguments θ
  | "findall" => performFindall arguments θ
  | _ => quietly (Agent.performBuiltin name arguments θ)

def perform (kind : ActionKind) (name : String) (arguments : List Term) (θ : Substitution) :
    WatchM (Option Substitution) :=
  match kind with
  | .builtin => performBuiltin name arguments θ
  | .user => quietly (Agent.performUser name arguments θ)

def firstApplicable (literal : Term) : List Plan → WatchM (Option (Plan × Substitution))
  | [] => pure none
  | plan :: rest => do
      let occursCheck := (← quietly get).limits.occursCheck
      match Substitution.empty.unify? occursCheck plan.trigger.literal literal with
      | none => firstApplicable literal rest
      | some θ =>
          match ← holds plan.context θ with
          | none => firstApplicable literal rest
          | some bindings => return some (plan, bindings)

def selectPlan (trigger : Trigger) (callerGoal : Option Term) : WatchM (Option Frame) := do
  let n ← quietly Agent.freshNumber
  let literal := trigger.literal.mark ["e" ++ toString n]
  match ← firstApplicable literal ((← quietly get).relevantPlans trigger) with
  | none => return none
  | some (plan, bindings) =>
      quietly (Agent.written (plan.isTitleWritable && trigger.isWritable))
      quietly (Agent.reportNamed .debug (plan.title ++ " selected for " ++ trigger.render))
      return some { plan, bindings, literal, tasks := Task.ofStatements plan.body, callerGoal }

def executeAchieve (θ : Substitution) (goal : Term) : WatchM Effect := do
  let goal ← quietly (Agent.resolve θ goal)
  match ← selectPlan (.goal goal) (some goal) with
  | some callee => return .called callee
  | none =>
      quietly (Agent.written goal.isWritable)
      quietly (Agent.reportNamed .warning
        ("no applicable plan for " ++ (Trigger.goal goal).render))
      return .failed

def executeTest (θ : Substitution) (goal : Term) : WatchM Effect := do
  let course := Course.query (← quietly get).limits goal θ
  match ← searching (·.firstOf course) with
  | some answer => return .proceeded answer []
  | none =>
      let goal ← quietly (Agent.resolve θ goal)
      match ← selectPlan (.question goal) (some goal) with
      | some callee => return .called callee
      | none => return .failed

def executeTestOfLoop (θ : Substitution) (condition : Formula) (body : List Statement)
    (fresh : List Variable) : WatchM Effect := do
  let entered := θ.without fresh
  match ← holds condition entered with
  | none => return .proceeded entered []
  | some extended =>
      return .proceeded extended (Task.ofStatements body ++ [.retest condition body fresh])

def execute (θ : Substitution) : Task → WatchM Effect
  | .retest condition body fresh => executeTestOfLoop θ condition body fresh
  | .statement step =>
      match step with
      | .achieve goal => executeAchieve θ goal
      | .achieveLater goal => do
          quietly (Agent.achieve (← quietly (Agent.resolve θ goal)))
          return .proceeded θ []
      | .test goal => executeTest θ goal
      | .add literal => do
          let _ ← quietly (Agent.addBelief (← quietly (Agent.resolve θ literal)))
          return .proceeded θ []
      | .remove literal => quietly (Agent.executeRemove θ literal)
      | .replace literal => quietly (Agent.executeReplace θ literal)
      | .action kind name arguments => return .ofBindings (← perform kind name arguments θ)
      | .constraint relation left right =>
          return .ofBindings (← holds (.comparison relation left right) θ)
      | .branch condition positive negative => do
          match ← holds condition θ with
          | some extended => return .proceeded extended (Task.ofStatements positive)
          | none => return .proceeded θ (Task.ofStatements negative)
      | .loop condition body =>
          executeTestOfLoop θ condition body (Agent.freshVariables θ (.loop condition body))

def unwind : List Frame → WatchM (Option (List Frame))
  | [] => return none
  | frame :: below => do
      if frame.pursuesGoal then
        match ← selectPlan (.failure frame.instantiated) none with
        | some handler => return some (handler :: below)
        | none => unwind below
      else unwind below

def fail (intention : Intention) (place reason : String) : WatchM (Bool × Intention) := do
  quietly (Agent.reportNamed .info
    (s!"intention {intention.id} failed at " ++ place ++ ": " ++ reason))
  match ← unwind intention.frames with
  | some frames => return (true, intention.withFrames frames)
  | none =>
      quietly (Agent.reportNamed .warning
        (s!"dropped intention {intention.id}: " ++ place ++ " failed (" ++ reason ++ ")"))
      return (false, intention.withFrames [])

def failAt (intention : Intention) (task : Task) (reason : String) :
    WatchM (Bool × Intention) := do
  quietly (Agent.written task.isWritable)
  fail intention task.place reason

def complete (intention : Intention) (finished : Frame) (below : List Frame) :
    WatchM (Bool × Intention) := do
  match finished.callerGoal, below with
  | some goal, caller :: others =>
      let result := Agent.returned finished (← quietly Agent.freshNumber)
      let occursCheck := (← quietly get).limits.occursCheck
      match caller.bindings.unify? occursCheck goal result with
      | some bindings =>
          return (true, intention.withFrames ({ caller with bindings } :: others))
      | none =>
          quietly (Agent.written result.isWritable)
          fail (intention.withFrames below) "completion" ("could not bind " ++ result.render)
  | _, _ => return (true, intention.withFrames below)

def attempt (θ : Substitution) (task : Task) : WatchM (Except String Effect) :=
  tryCatch (do return .ok (← execute θ task)) fun fault =>
    if fault.failsIntention then return .error fault.message else quietly (throw fault)

def step (intention : Intention) : WatchM (Bool × Intention) := do
  match intention.frames with
  | [] => return (true, intention)
  | frame :: below =>
      match frame.tasks with
      | [] => complete intention frame below
      | task :: tasks =>
          let counted := { intention with steps := intention.steps + 1 }
          let maxSteps := (← quietly get).limits.maxSteps
          if counted.steps > maxSteps then
            quietly (Agent.written (Number.int maxSteps).isWritable)
            failAt counted task s!"more than {maxSteps} steps"
          else
            match ← attempt frame.bindings task with
            | .error reason => failAt counted task reason
            | .ok .failed => failAt counted task "statement failed"
            | .ok (.proceeded bindings inserted) =>
                let frame := { frame with bindings, tasks := inserted ++ tasks }
                return (true, counted.withFrames (frame :: below))
            | .ok (.called callee) =>
                return (true, counted.withFrames (callee :: { frame with tasks } :: below))

variable {α β : Type} {watched : WatchM α} {computation : AgentM α}

/-- A watched computation does what another one does unwatched. -/
def Erases (watched : WatchM α) (computation : AgentM α) : Prop :=
  ∀ watch, computation.run.run watch.agent =
    ((watched.run.run watch).1, (watched.run.run watch).2.agent)

theorem erases_quietly (computation : AgentM α) : Erases (quietly computation) computation :=
  fun _ => rfl

theorem erases_pure (value : α) : Erases (pure value) (pure value) :=
  fun _ => rfl

theorem Erases.bind {next : α → WatchM β} {next' : α → AgentM β}
    (first : Erases watched computation) (rest : ∀ value, Erases (next value) (next' value)) :
    Erases (watched >>= next) (computation >>= next') := by
  intro watch
  rw [Agent.run_bind, Agent.run_bind, first watch]
  rcases watched.run.run watch with ⟨fault | value, after⟩
  · rfl
  · exact rest value after

theorem Erases.tryCatch {handler : Fault → WatchM α} {handler' : Fault → AgentM α}
    (erases : Erases watched computation) (caught : ∀ fault, Erases (handler fault) (handler' fault)) :
    Erases (tryCatch watched handler) (tryCatch computation handler') := by
  intro watch
  rw [Agent.run_tryCatch, Agent.run_tryCatch, erases watch]
  rcases watched.run.run watch with ⟨fault | value, after⟩
  · exact caught fault after
  · rfl

theorem erases_searching {ask : BeliefBase → Except Fault α × BeliefBase × List Application}
    {search : BeliefBase → Except Fault α × BeliefBase}
    (same : ∀ base, search base = ((ask base).1, (ask base).2.1)) :
    Erases (searching ask) (Agent.searching search) := by
  intro watch
  simp only [Agent.searching, same]
  rfl

theorem erases_holds (formula : Formula) (θ : Substitution) :
    Erases (holds formula θ) (Agent.holds formula θ) := by
  refine (erases_quietly _).bind fun agent => erases_searching fun base => ?_
  rw [← Course.search_solve, base.first_search]

theorem erases_answers (formula : Formula) (θ : Substitution) :
    Erases (answers formula θ) (Agent.answers formula θ) := by
  refine (erases_quietly _).bind fun agent => erases_searching fun base => ?_
  rw [← Course.search_solve, base.answers_search]

theorem erases_query (formula : Formula) : Erases (query formula) (Agent.query formula) :=
  (erases_answers formula _).bind fun _ => erases_pure _

theorem erases_performCount (arguments : List Term) (θ : Substitution) :
    Erases (performCount arguments θ) (Agent.performCount arguments θ) := by
  match arguments with
  | [query, target] => exact (erases_answers _ θ).bind fun _ => erases_pure _
  | [] | [_] | _ :: _ :: _ :: _ => exact erases_quietly _

theorem erases_performFindall (arguments : List Term) (θ : Substitution) :
    Erases (performFindall arguments θ) (Agent.performFindall arguments θ) := by
  match arguments with
  | [template, query, target] =>
    refine (erases_answers _ θ).bind fun _ => (erases_quietly _).bind fun _ => ?_
    exact (erases_quietly _).bind fun _ => erases_pure _
  | [] | [_] | [_, _] | _ :: _ :: _ :: _ :: _ => exact erases_quietly _

theorem erases_perform (kind : ActionKind) (name : String) (arguments : List Term)
    (θ : Substitution) : Erases (perform kind name arguments θ)
      (Agent.perform kind name arguments θ) := by
  cases kind with
  | user => exact erases_quietly _
  | builtin =>
    show Erases (performBuiltin name arguments θ) (Agent.performBuiltin name arguments θ)
    unfold performBuiltin
    split
    next => exact erases_performCount arguments θ
    next => exact erases_performFindall arguments θ
    next => exact erases_quietly _

theorem erases_firstApplicable (literal : Term) (plans : List Plan) :
    Erases (firstApplicable literal plans) (Agent.firstApplicable literal plans) := by
  induction plans with
  | nil => exact erases_pure none
  | cons plan rest ih =>
    refine (erases_quietly _).bind fun agent => ?_
    dsimp only
    cases Substitution.empty.unify? agent.limits.occursCheck plan.trigger.literal literal with
    | none => exact ih
    | some θ =>
      refine (erases_holds plan.context θ).bind fun found => ?_
      cases found with
      | none => exact ih
      | some bindings => exact erases_pure _

theorem erases_selectPlan (trigger : Trigger) (callerGoal : Option Term) :
    Erases (selectPlan trigger callerGoal) (Agent.selectPlan trigger callerGoal) := by
  refine (erases_quietly _).bind fun n => (erases_quietly _).bind fun agent => ?_
  refine (erases_firstApplicable _ _).bind fun found => ?_
  cases found with
  | none => exact erases_pure none
  | some chosen =>
    exact (erases_quietly _).bind fun _ => (erases_quietly _).bind fun _ => erases_pure _

theorem erases_executeAchieve (θ : Substitution) (goal : Term) :
    Erases (executeAchieve θ goal) (Agent.executeAchieve θ goal) := by
  refine (erases_quietly _).bind fun goal => (erases_selectPlan _ _).bind fun found => ?_
  cases found with
  | some callee => exact erases_pure _
  | none => exact (erases_quietly _).bind fun _ => (erases_quietly _).bind fun _ => erases_pure _

theorem erases_executeTest (θ : Substitution) (goal : Term) :
    Erases (executeTest θ goal) (Agent.executeTest θ goal) := by
  refine (erases_quietly _).bind fun agent => ?_
  have asks (base : BeliefBase) : base.first (Search.query agent.limits goal θ) =
      ((base.firstOf (Course.query agent.limits goal θ)).1,
        (base.firstOf (Course.query agent.limits goal θ)).2.1) := by
    rw [← Course.search_query, base.first_search]
  refine (erases_searching asks).bind fun found => ?_
  cases found with
  | some answer => exact erases_pure _
  | none =>
    refine (erases_quietly _).bind fun goal => (erases_selectPlan _ _).bind fun found => ?_
    cases found with
    | some callee => exact erases_pure _
    | none => exact erases_pure _

theorem erases_executeTestOfLoop (θ : Substitution) (condition : Formula) (body : List Statement)
    (fresh : List Variable) : Erases (executeTestOfLoop θ condition body fresh)
      (Agent.executeTestOfLoop θ condition body fresh) := by
  refine (erases_holds condition _).bind fun found => ?_
  cases found with
  | none => exact erases_pure _
  | some extended => exact erases_pure _

theorem erases_execute (θ : Substitution) (task : Task) :
    Erases (execute θ task) (Agent.execute θ task) := by
  cases task with
  | retest condition body fresh => exact erases_executeTestOfLoop θ condition body fresh
  | statement step =>
    cases step with
    | achieve goal => exact erases_executeAchieve θ goal
    | achieveLater goal | add literal =>
      refine (erases_quietly _).bind fun resolved => ?_
      exact (erases_quietly _).bind fun _ => erases_pure _
    | test goal => exact erases_executeTest θ goal
    | remove literal | replace literal => exact erases_quietly _
    | action kind name arguments =>
      exact (erases_perform kind name arguments θ).bind fun _ => erases_pure _
    | constraint relation left right => exact (erases_holds _ θ).bind fun _ => erases_pure _
    | branch condition positive negative =>
      refine (erases_holds condition θ).bind fun found => ?_
      cases found with
      | some extended => exact erases_pure _
      | none => exact erases_pure _
    | loop condition body => exact erases_executeTestOfLoop θ condition body _

theorem erases_unwind (frames : List Frame) : Erases (unwind frames) (Agent.unwind frames) := by
  induction frames with
  | nil => exact erases_pure none
  | cons frame below ih =>
    unfold unwind Agent.unwind
    split
    next =>
      refine (erases_selectPlan _ none).bind fun found => ?_
      cases found with
      | some handler => exact erases_pure _
      | none => exact ih
    next => exact ih

theorem erases_fail (intention : Intention) (place reason : String) :
    Erases (fail intention place reason) (Agent.fail intention place reason) := by
  refine (erases_quietly _).bind fun _ => (erases_unwind _).bind fun found => ?_
  cases found with
  | some frames => exact erases_pure _
  | none => exact (erases_quietly _).bind fun _ => erases_pure _

theorem erases_failAt (intention : Intention) (task : Task) (reason : String) :
    Erases (failAt intention task reason) (Agent.failAt intention task reason) :=
  (erases_quietly _).bind fun _ => erases_fail _ _ _

theorem erases_complete (intention : Intention) (finished : Frame) (below : List Frame) :
    Erases (complete intention finished below) (Agent.complete intention finished below) := by
  unfold complete Agent.complete
  cases finished.callerGoal with
  | none => exact erases_pure _
  | some goal =>
    cases below with
    | nil => exact erases_pure _
    | cons caller others =>
      refine (erases_quietly _).bind fun n => (erases_quietly _).bind fun agent => ?_
      dsimp only
      cases caller.bindings.unify? agent.limits.occursCheck goal (Agent.returned finished n) with
      | some bindings => exact erases_pure _
      | none => exact (erases_quietly _).bind fun _ => erases_fail _ _ _

theorem erases_attempt (θ : Substitution) (task : Task) :
    Erases (attempt θ task) (Agent.attempt θ task) := by
  refine ((erases_execute θ task).bind fun effect => erases_pure _).tryCatch fun fault => ?_
  split
  next => exact erases_pure _
  next => exact erases_quietly _

/-- A step that is watched is the step that the agent takes unwatched. -/
theorem erases_step (intention : Intention) : Erases (step intention) (Agent.step intention) := by
  unfold step Agent.step
  cases intention.frames with
  | nil => exact erases_pure _
  | cons frame below =>
    dsimp only
    cases frame.tasks with
    | nil => exact erases_complete _ _ _
    | cons task tasks =>
      refine (erases_quietly _).bind fun agent => ?_
      split
      next => exact (erases_quietly _).bind fun _ => erases_failAt _ _ _
      next =>
        refine (erases_attempt frame.bindings task).bind fun result => ?_
        rcases result with reason | _ | _ | _
        · exact erases_failAt _ _ _
        · exact erases_failAt _ _ _
        · exact erases_pure _
        · exact erases_pure _

end Watch

end AgentSpeak
