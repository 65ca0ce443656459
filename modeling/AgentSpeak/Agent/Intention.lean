import AgentSpeak.Program.Basic
import AgentSpeak.Substitution.Basic

namespace AgentSpeak

/-- Something left to do in a frame. -/
inductive Task where
  | statement (step : Statement)
  /-- The next test of a running loop. The variables of `fresh` had no value when it began. -/
  | retest (condition : Formula) (body : List Statement) (fresh : List Variable)

namespace Task

/-- The statement that a task belongs to. -/
def source : Task → Statement
  | .statement step => step
  | .retest condition body _ => .loop condition body

/-- The text by which messages name a task. -/
def place (task : Task) : String :=
  task.source.render ""

/-- Whether messages can name a task. -/
def isWritable (task : Task) : Bool :=
  task.source.isWritable

/-- The statements of a list as tasks. -/
def ofStatements (statements : List Statement) : List Task :=
  statements.map Task.statement

end Task

structure Frame where
  plan : Plan
  bindings : Substitution
  /-- The literal of the event that the plan answers, renamed apart. -/
  literal : Term
  tasks : List Task
  /-- The goal as its caller wrote it, if a caller waits for its bindings. -/
  callerGoal : Option Term

namespace Frame

/-- Whether the frame pursues a goal, whose failure can be handled. -/
def pursuesGoal (frame : Frame) : Bool :=
  frame.plan.trigger.change = .addition ∧ frame.plan.trigger.subject = .achievement

/-- The event literal under the frame's own bindings. -/
def instantiated (frame : Frame) : Term :=
  frame.bindings.apply frame.literal

end Frame

/-- A stack of frames, the running one first, and how many statements have been begun. -/
structure Intention where
  id : Nat
  frames : List Frame
  steps : Nat

namespace Intention

/-- An intention without frames has run to its end. -/
def isDone (intention : Intention) : Bool :=
  intention.frames.isEmpty

def withFrames (intention : Intention) (frames : List Frame) : Intention :=
  { intention with frames }

end Intention

end AgentSpeak
