import AgentSpeak.Agent.Action
import AgentSpeak.Agent.Basic
import AgentSpeak.Agent.Intention

namespace AgentSpeak.Agent

/-- The plans for events of this change, subject, name and arity. -/
def relevantPlans (agent : Agent) (trigger : Trigger) : List Plan :=
  agent.plans.filter fun plan =>
    plan.trigger.change == trigger.change && plan.trigger.subject == trigger.subject &&
      plan.trigger.literal.indicator? == trigger.literal.indicator?

/-- The first of some plans that applies to an event literal, with its bindings. -/
def firstApplicable (literal : Term) : List Plan → AgentM (Option (Plan × Substitution))
  | [] => pure none
  | plan :: rest => do
      let occursCheck := (← get).limits.occursCheck
      match Substitution.empty.unify? occursCheck plan.trigger.literal literal with
      | none => firstApplicable literal rest
      | some θ =>
          match ← holds plan.context θ with
          | none => firstApplicable literal rest
          | some bindings => return some (plan, bindings)

/-- The frame of the plan chosen for an event, whose literal is renamed apart. -/
def selectPlan (trigger : Trigger) (callerGoal : Option Term) : AgentM (Option Frame) := do
  let n ← freshNumber
  let literal := trigger.literal.mark ["e" ++ toString n]
  match ← firstApplicable literal ((← get).relevantPlans trigger) with
  | none => return none
  | some (plan, bindings) =>
      written (plan.isTitleWritable && trigger.isWritable)
      reportNamed .debug (plan.title ++ " selected for " ++ trigger.render)
      return some { plan, bindings, literal, tasks := Task.ofStatements plan.body, callerGoal }

/-!
Running intentions, one statement at a time.

A subgoal puts a frame on the stack; when that frame ends, its bindings flow back to the caller. A
failure takes frames off the stack down to the nearest goal with a plan for its failure, and that
plan takes the goal's place.
-/

/-- What running a task does to its frame. -/
inductive Effect where
  | failed
  /-- The frame goes on with these bindings, and with some tasks before the others. -/
  | proceeded (θ : Substitution) (inserted : List Task)
  | called (callee : Frame)

/-- The frame goes on with bindings, if there are any. -/
def Effect.ofBindings : Option Substitution → Effect
  | some θ => .proceeded θ []
  | none => .failed

def executeAchieve (θ : Substitution) (goal : Term) : AgentM Effect := do
  let goal ← resolve θ goal
  match ← selectPlan (.goal goal) (some goal) with
  | some callee => return .called callee
  | none =>
      written goal.isWritable
      reportNamed .warning ("no applicable plan for " ++ (Trigger.goal goal).render)
      return .failed

/-- Answers a question from the belief base, or else by a plan. -/
def executeTest (θ : Substitution) (goal : Term) : AgentM Effect := do
  let search := Search.query (← get).limits goal θ
  match ← searching (·.first search) with
  | some answer => return .proceeded answer []
  | none =>
      let goal ← resolve θ goal
      match ← selectPlan (.question goal) (some goal) with
      | some callee => return .called callee
      | none => return .failed

/-- Gives up the first belief that matches, if one does. -/
def executeRemove (θ : Substitution) (literal : Term) : AgentM Effect := do
  let pattern ← resolve θ literal
  let occursCheck := (← get).limits.occursCheck
  match ← revise (·.removing occursCheck pattern θ) with
  | none => return .proceeded θ []
  | some extended =>
      post (.dropped (extended.apply pattern))
      return .proceeded extended []

/-- Puts a belief in place of those with its name and arity. A belief that was there before is no
event. -/
def executeReplace (θ : Substitution) (literal : Term) : AgentM Effect := do
  let fact ← resolve θ literal
  let occursCheck := (← get).limits.occursCheck
  let removed ← revise (·.replacing occursCheck fact)
  (removed.filter fun old => !(old == fact)).forM fun old => post (.dropped old)
  unless removed.any (· == fact) do post (.believed fact)
  return .proceeded θ []

/-- The variables of a loop that have no value when it begins. -/
def freshVariables (θ : Substitution) (loop : Statement) : List Variable :=
  loop.vars.filterMap fun v => match θ.walk (.var v) with
    | .var w => some w
    | _ => none

/-- Tests a loop's condition, with what the last pass bound free again. -/
def executeTestOfLoop (θ : Substitution) (condition : Formula) (body : List Statement)
    (fresh : List Variable) : AgentM Effect := do
  let entered := θ.without fresh
  match ← holds condition entered with
  | none => return .proceeded entered []
  | some extended =>
      return .proceeded extended (Task.ofStatements body ++ [.retest condition body fresh])

/-- Runs a task under the bindings of its frame. -/
def execute (θ : Substitution) : Task → AgentM Effect
  | .retest condition body fresh => executeTestOfLoop θ condition body fresh
  | .statement step =>
      match step with
      | .achieve goal => executeAchieve θ goal
      | .achieveLater goal => do
          achieve (← resolve θ goal)
          return .proceeded θ []
      | .test goal => executeTest θ goal
      | .add literal => do
          let _ ← addBelief (← resolve θ literal)
          return .proceeded θ []
      | .remove literal => executeRemove θ literal
      | .replace literal => executeReplace θ literal
      | .action kind name arguments => return .ofBindings (← perform kind name arguments θ)
      | .constraint relation left right =>
          return .ofBindings (← holds (.comparison relation left right) θ)
      | .branch condition positive negative => do
          match ← holds condition θ with
          | some extended => return .proceeded extended (Task.ofStatements positive)
          | none => return .proceeded θ (Task.ofStatements negative)
      | .loop condition body =>
          executeTestOfLoop θ condition body (freshVariables θ (.loop condition body))

/-- Takes frames off a stack down to the nearest goal with a plan for its failure. -/
def unwind : List Frame → AgentM (Option (List Frame))
  | [] => return none
  | frame :: below => do
      if frame.pursuesGoal then
        match ← selectPlan (.failure frame.instantiated) none with
        | some handler => return some (handler :: below)
        | none => unwind below
      else unwind below

/-- Lets an intention fail at a place. It goes on with a plan for the failure; if there is none, it
is dropped, which leaves it without frames and gives false. -/
def fail (intention : Intention) (place reason : String) : AgentM (Bool × Intention) := do
  reportNamed .info (s!"intention {intention.id} failed at " ++ place ++ ": " ++ reason)
  match ← unwind intention.frames with
  | some frames => return (true, intention.withFrames frames)
  | none =>
      reportNamed .warning
        (s!"dropped intention {intention.id}: " ++ place ++ " failed (" ++ reason ++ ")")
      return (false, intention.withFrames [])

/-- Lets an intention fail at a task. -/
def failAt (intention : Intention) (task : Task) (reason : String) : AgentM (Bool × Intention) := do
  written task.isWritable
  fail intention task.place reason

/-- The result of a finished goal; variables without a value get new names that no other frame
uses. -/
def returned (finished : Frame) (n : Nat) : Term :=
  finished.instantiated.bind fun v => .var (v.hide.mark ["c" ++ toString n])

/-- Takes the finished frame off the stack and gives its bindings to the caller. -/
def complete (intention : Intention) (finished : Frame) (below : List Frame) :
    AgentM (Bool × Intention) := do
  match finished.callerGoal, below with
  | some goal, caller :: others =>
      let result := returned finished (← freshNumber)
      let occursCheck := (← get).limits.occursCheck
      match caller.bindings.unify? occursCheck goal result with
      | some bindings =>
          return (true, intention.withFrames ({ caller with bindings } :: others))
      | none =>
          written result.isWritable
          fail (intention.withFrames below) "completion" ("could not bind " ++ result.render)
  | _, _ => return (true, intention.withFrames below)

/-- Runs a task. A fault of the program counts as a failure with its message as the reason. -/
def attempt (θ : Substitution) (task : Task) : AgentM (Except String Effect) :=
  tryCatch (do return .ok (← execute θ task)) fun fault =>
    if fault.failsIntention then return .error fault.message else throw fault

/-- Runs the next task of an intention's first frame, or ends that frame. The result is false if the
intention was dropped. -/
def step (intention : Intention) : AgentM (Bool × Intention) := do
  match intention.frames with
  | [] => return (true, intention)
  | frame :: below =>
      match frame.tasks with
      | [] => complete intention frame below
      | task :: tasks =>
          let counted := { intention with steps := intention.steps + 1 }
          let maxSteps := (← get).limits.maxSteps
          if counted.steps > maxSteps then
            written (Number.int maxSteps).isWritable
            failAt counted task s!"more than {maxSteps} steps"
          else
            match ← attempt frame.bindings task with
            | .error reason => failAt counted task reason
            | .ok .failed => failAt counted task "statement failed"
            | .ok (.proceeded bindings inserted) =>
                let frame := { frame with bindings, tasks := inserted ++ tasks }
                return (true, counted.withFrames (frame :: below))
            | .ok (.called callee) =>
                return (true, counted.withFrames (callee :: { frame with tasks } :: below))

/-- Runs an intention for at most `fuel` steps; true if it ended without being dropped. -/
def runFor : Nat → Intention → AgentM Bool
  | 0, intention => return intention.isDone
  | fuel + 1, intention => do
      if intention.isDone then return true
      else
        match ← step intention with
        | (true, next) => runFor fuel next
        | (false, _) => return false

/-- As many steps as an intention can take: each statement begun takes one, and so does the end of
each frame. -/
def stepBound (limits : Limits) : Nat :=
  3 * limits.maxSteps.toNat + 2

def runIntention (intention : Intention) : AgentM Bool := do
  runFor (stepBound (← get).limits) intention

end AgentSpeak.Agent
