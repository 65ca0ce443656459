import AgentSpeak.Formula.Basic
import AgentSpeak.Term.Printer

namespace AgentSpeak.Formula

def isDisjunction : Formula → Bool
  | .disjunction .. => true
  | _ => false

def isCompound : Formula → Bool
  | .conjunction .. => true
  | .disjunction .. => true
  | _ => false

/-- A text in parentheses if a condition holds. -/
def parenthesizedIf (condition : Bool) (text : String) : String :=
  if condition then "(" ++ text ++ ")" else text

def render : Formula → String
  | .literal term => term.render
  | .negation formula => "not " ++ parenthesizedIf formula.isCompound formula.render
  | .conjunction left right =>
      parenthesizedIf left.isDisjunction left.render ++ " & " ++
        parenthesizedIf right.isDisjunction right.render
  | .disjunction left right => left.render ++ " | " ++ right.render
  | .comparison relation left right =>
      left.render ++ " " ++ relation.symbol ++ " " ++ right.render

/-- Whether a formula has a text. -/
def isWritable : Formula → Bool
  | .literal term => term.isWritable
  | .negation formula => formula.isWritable
  | .conjunction left right => left.isWritable && right.isWritable
  | .disjunction left right => left.isWritable && right.isWritable
  | .comparison _ left right => left.isWritable && right.isWritable

end AgentSpeak.Formula
