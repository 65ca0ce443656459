import AgentSpeak.Term.Basic

namespace AgentSpeak

/-- A relation between two terms. A symbol that stands for none is kept as it is. -/
inductive Relation where
  | unify
  | equal
  | notEqual
  | less
  | lessEqual
  | greater
  | greaterEqual
  | other (symbol : String)
  deriving DecidableEq, Repr

namespace Relation

def symbol : Relation → String
  | unify => "="
  | equal => "=="
  | notEqual => "\\=="
  | less => "<"
  | lessEqual => "<="
  | greater => ">"
  | greaterEqual => ">="
  | other symbol => symbol

/-- The relation that a symbol stands for. -/
def ofSymbol (symbol : String) : Relation :=
  if symbol = "=" then unify
  else if symbol = "==" then equal
  else if symbol = "\\==" then notEqual
  else if symbol = "<" then less
  else if symbol = "<=" then lessEqual
  else if symbol = ">" then greater
  else if symbol = ">=" then greaterEqual
  else other symbol

@[simp] theorem symbol_ofSymbol (text : String) : (ofSymbol text).symbol = text := by
  unfold ofSymbol
  repeat' split
  all_goals simp_all [symbol]

end Relation

inductive Formula where
  | literal (term : Term)
  | negation (formula : Formula)
  | conjunction (left right : Formula)
  | disjunction (left right : Formula)
  | comparison (relation : Relation) (left right : Term)
  deriving BEq

namespace Formula

def truth : Formula :=
  .literal Term.truth

instance : Inhabited Formula := ⟨truth⟩

/-- Whether a formula is the literal `true`. -/
def isTruth (formula : Formula) : Bool :=
  formula == truth

/-- A formula with more marks on each of its variables. -/
def mark (marks : List String) : Formula → Formula
  | .literal term => .literal (term.mark marks)
  | .negation formula => .negation (formula.mark marks)
  | .conjunction left right => .conjunction (left.mark marks) (right.mark marks)
  | .disjunction left right => .disjunction (left.mark marks) (right.mark marks)
  | .comparison relation left right => .comparison relation (left.mark marks) (right.mark marks)

/-- The variables of a formula, in order, as often as they occur. -/
def vars : Formula → List Variable
  | .literal term => term.vars
  | .negation formula => formula.vars
  | .conjunction left right => left.vars ++ right.vars
  | .disjunction left right => left.vars ++ right.vars
  | .comparison _ left right => left.vars ++ right.vars

/-- The variables with a name, each once, in order of appearance. -/
def namedVariables (formula : Formula) : List Variable :=
  (formula.vars.filter fun v => !v.isAnonymous).eraseDups

end Formula

end AgentSpeak
