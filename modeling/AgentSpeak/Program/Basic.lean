import AgentSpeak.Program.Statement
import AgentSpeak.Program.Trigger

namespace AgentSpeak

/-- A rule: the head holds where the body does. -/
structure Rule where
  head : Term
  body : Formula
  deriving BEq

namespace Rule

/-- A rule with more marks on each of its variables. -/
def mark (marks : List String) (rule : Rule) : Rule :=
  ⟨rule.head.mark marks, rule.body.mark marks⟩

def render (rule : Rule) : String :=
  rule.head.render ++ " :- " ++ rule.body.render ++ "."

end Rule

/-- A plan: which events it handles, when it applies, and what it does. -/
structure Plan where
  trigger : Trigger
  context : Formula
  body : List Statement
  label : Option Term
  deriving BEq

namespace Plan

/-- The name that messages give a plan: its label, or else its trigger. -/
def title (plan : Plan) : String :=
  match plan.label with
  | some label => "@" ++ label.render
  | none => plan.trigger.render

/-- Whether a plan's title has a text. -/
def isTitleWritable (plan : Plan) : Bool :=
  match plan.label with
  | some label => label.isWritable
  | none => plan.trigger.isWritable

def render (plan : Plan) : String :=
  let label := match plan.label with
    | some label => "@" ++ label.render ++ "\n"
    | none => ""
  let context :=
    if plan.context.isTruth then "" else " : " ++ plan.context.render
  let body :=
    if plan.body.isEmpty then ""
    else "\n    <- " ++ ";\n       ".intercalate (Statement.renderAll "    " plan.body)
  label ++ plan.trigger.render ++ context ++ body ++ "."

end Plan

structure Program where
  beliefs : List Term
  rules : List Rule
  goals : List Term
  plans : List Plan

namespace Program

def empty : Program :=
  ⟨[], [], [], []⟩

/-- A program's clauses under one heading, with a blank line behind them; nothing for no clause. -/
def headed (heading : String) (clauses : List String) : List String :=
  if clauses.isEmpty then [] else heading :: clauses ++ [""]

/-- The lines of a program's source text. -/
def renderLines (program : Program) : List String :=
  headed "// Beliefs" (program.beliefs.map fun belief => belief.render ++ ".") ++
  headed "// Rules" (program.rules.map Rule.render) ++
  headed "// Goals" (program.goals.map fun goal => "!" ++ goal.render ++ ".") ++
  (if program.plans.isEmpty then []
    else "// Plans" :: program.plans.flatMap fun plan => [plan.render, ""])

/-- A program's source text. It ends with one line end. -/
def render (program : Program) : String :=
  let lines := program.renderLines
  if lines.isEmpty then "" else "\n".intercalate lines.dropLast ++ "\n"

end Program

end AgentSpeak
