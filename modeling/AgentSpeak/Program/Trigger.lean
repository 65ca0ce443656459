import AgentSpeak.Term.Printer

namespace AgentSpeak

inductive Change where
  | addition
  | deletion
  deriving DecidableEq, Repr

/-- The sign of a change. -/
def Change.sign : Change → String
  | addition => "+"
  | deletion => "-"

inductive Subject where
  | achievement
  | test
  | belief
  deriving DecidableEq, Repr

/-- The mark of a subject; beliefs have none. -/
def Subject.symbol : Subject → String
  | achievement => "!"
  | test => "?"
  | belief => ""

/-- An event, or the part of a plan that says which events it handles. -/
structure Trigger where
  change : Change
  subject : Subject
  literal : Term
  deriving BEq

namespace Trigger

/-- The event of a goal to achieve. -/
def goal (literal : Term) : Trigger :=
  ⟨.addition, .achievement, literal⟩

/-- The event of a goal that failed. -/
def failure (literal : Term) : Trigger :=
  ⟨.deletion, .achievement, literal⟩

/-- The event of a question that the belief base did not answer. -/
def question (literal : Term) : Trigger :=
  ⟨.addition, .test, literal⟩

def believed (literal : Term) : Trigger :=
  ⟨.addition, .belief, literal⟩

/-- The event of a belief given up. -/
def dropped (literal : Term) : Trigger :=
  ⟨.deletion, .belief, literal⟩

def render (trigger : Trigger) : String :=
  trigger.change.sign ++ trigger.subject.symbol ++ trigger.literal.render

/-- Whether a trigger has a text. -/
def isWritable (trigger : Trigger) : Bool :=
  trigger.literal.isWritable

end Trigger

end AgentSpeak
