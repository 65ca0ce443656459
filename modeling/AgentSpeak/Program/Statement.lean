import AgentSpeak.Formula.Printer

namespace AgentSpeak

inductive ActionKind where
  | builtin
  | user
  deriving DecidableEq, Repr

/-- The word for a kind of action. -/
def ActionKind.name : ActionKind → String
  | builtin => "builtin"
  | user => "user"

inductive Statement where
  | achieve (goal : Term)
  /-- Posts a goal and goes on at once. -/
  | achieveLater (goal : Term)
  /-- Asks for a belief and binds its variables. -/
  | test (goal : Term)
  | add (literal : Term)
  | remove (literal : Term)
  /-- Adds a belief in place of those with its name and arity. -/
  | replace (literal : Term)
  | action (kind : ActionKind) (name : String) (arguments : List Term)
  | constraint (relation : Relation) (left right : Term)
  | branch (condition : Formula) (positive negative : List Statement)
  | loop (condition : Formula) (body : List Statement)
  deriving BEq

namespace Statement

mutual

/-- The variables of a statement, in order, as often as they occur. -/
def vars : Statement → List Variable
  | .achieve goal => goal.vars
  | .achieveLater goal => goal.vars
  | .test goal => goal.vars
  | .add literal => literal.vars
  | .remove literal => literal.vars
  | .replace literal => literal.vars
  | .action _ _ arguments => Term.varsAll arguments
  | .constraint _ left right => left.vars ++ right.vars
  | .branch condition positive negative =>
      condition.vars ++ varsAll positive ++ varsAll negative
  | .loop condition body => condition.vars ++ varsAll body

/-- The variables of a list of statements. -/
def varsAll : List Statement → List Variable
  | [] => []
  | statement :: rest => vars statement ++ varsAll rest

end

/-- Statements in braces, each on a line of its own. -/
def renderBlock (indent : String) (lines : List String) : String :=
  "\x7b\n" ++ ";\n".intercalate (lines.map fun line => indent ++ "    " ++ line) ++ "\n" ++
    indent ++ "\x7d"

mutual

/-- A statement's source text, for a line that begins with `indent`. -/
def render (indent : String) : Statement → String
  | .achieve goal => "!" ++ goal.render
  | .achieveLater goal => "!!" ++ goal.render
  | .test goal => "?" ++ goal.render
  | .add literal => "+" ++ literal.render
  | .remove literal => "-" ++ literal.render
  | .replace literal => "-+" ++ literal.render
  | .action kind name arguments =>
      let mark := match kind with
        | .builtin => "."
        | .user => ""
      if arguments.isEmpty then mark ++ name
      else mark ++ name ++ "(" ++ ", ".intercalate (Term.renderAll arguments) ++ ")"
  | .constraint relation left right => (Formula.comparison relation left right).render
  | .branch condition positive negative =>
      let text := "if (" ++ condition.render ++ ") " ++
        renderBlock indent (renderAll (indent ++ "    ") positive)
      if negative.isEmpty then text
      else text ++ " else " ++ renderBlock indent (renderAll (indent ++ "    ") negative)
  | .loop condition body =>
      "while (" ++ condition.render ++ ") " ++
        renderBlock indent (renderAll (indent ++ "    ") body)

/-- The source text of each statement, for lines that begin with `indent`. -/
def renderAll (indent : String) : List Statement → List String
  | [] => []
  | statement :: rest => render indent statement :: renderAll indent rest

end

mutual

/-- Whether a statement has a text. -/
def isWritable : Statement → Bool
  | .achieve goal => goal.isWritable
  | .achieveLater goal => goal.isWritable
  | .test goal => goal.isWritable
  | .add literal => literal.isWritable
  | .remove literal => literal.isWritable
  | .replace literal => literal.isWritable
  | .action _ _ arguments => Term.isWritableAll arguments
  | .constraint _ left right => left.isWritable && right.isWritable
  | .branch condition positive negative =>
      condition.isWritable && isWritableAll positive && isWritableAll negative
  | .loop condition body => condition.isWritable && isWritableAll body

def isWritableAll : List Statement → Bool
  | [] => true
  | statement :: rest => isWritable statement && isWritableAll rest

end

end Statement

end AgentSpeak
