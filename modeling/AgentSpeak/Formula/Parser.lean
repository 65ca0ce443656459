import AgentSpeak.Formula.Basic
import AgentSpeak.Term.Parser

namespace AgentSpeak.Formula

open Source (Parser Kind)
open Source.Parser

/-- The relation of a kind of token. -/
def relation? : Kind → Option Relation
  | .unify => some .unify
  | .equal => some .equal
  | .notEqual => some .notEqual
  | .less => some .less
  | .lessEqual => some .lessEqual
  | .greater => some .greater
  | .greaterEqual => some .greaterEqual
  | _ => none

def conjunction? : Kind → Option (Formula → Formula → Formula)
  | .ampersand => some .conjunction
  | _ => none

def disjunction? : Kind → Option (Formula → Formula → Formula)
  | .bar => some .disjunction
  | _ => none

/-- A relation with its right side, if one follows a left side that has been read. -/
def parseRelation? (left : Term) : Parser (Option Formula) := do
  match relation? (← peek).kind with
  | some relation =>
      let _ ← advance
      return some (.comparison relation left (← Term.parse))
  | none => return none

/-- A relation between terms, or a literal. -/
def parseAtomic : Parser Formula := do
  let first ← peek
  let left ← Term.parse
  match ← parseRelation? left with
  | some formula => return formula
  | none =>
      if left.isPlainLiteral then return .literal left
      else throw ⟨.notFormula left, first, nofun⟩

/-- A formula in parentheses, unless the parentheses belong to a term. -/
def parseGroup? (formula : Parser Formula) : Parser (Option Formula) :=
  attempt do
    let _ ← advance
    let inner ← formula
    let _ ← expect .closeParen (.token .closeParen)
    let next ← peek
    if (relation? next.kind).isSome || Term.isArithmetic next.kind then return none
    else return some inner

/-- A group, a relation or a literal. -/
def parseSimple (formula : Parser Formula) : Parser Formula := do
  if ← check .openParen then
    match ← parseGroup? formula with
    | some inner => return inner
    | none => parseAtomic
  else parseAtomic

/-- A formula with any number of negations before it. -/
def parseNegation (formula : Parser Formula) : Nat → Parser Formula
  | 0 => parseSimple formula
  | fuel + 1 => do
      if ← accept .notWord then return .negation (← parseNegation formula fuel)
      else parseSimple formula

/-- A formula that nests at most `depth` groups deep. -/
def parseWithin : Nat → Parser Formula
  | 0 => fail .term
  | depth + 1 =>
      let negation := do parseNegation (parseWithin depth) (← budget)
      chain disjunction? (chain conjunction? negation)

def parse : Parser Formula := do
  parseWithin (← budget)

def read (text : String) : Except Source.ParseError Formula :=
  parse.read text

end AgentSpeak.Formula
