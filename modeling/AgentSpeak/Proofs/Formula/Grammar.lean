import AgentSpeak.Proofs.Formula.Reading
import AgentSpeak.Proofs.Term.Grammar

namespace AgentSpeak

open Source (Token Kind wildcards)

namespace Formula

open Term (Expression Consecutive)

/-- The signs of relations. -/
def relations : List (Kind × Relation) :=
  [(.unify, .unify), (.equal, .equal), (.notEqual, .notEqual), (.less, .less),
    (.lessEqual, .lessEqual), (.greater, .greater), (.greaterEqual, .greaterEqual)]

mutual

/-- Conjunctions joined from the left. -/
inductive Disjunction : Nat → List Token → Formula → Prop where
  | single {w : Nat} {tokens : List Token} {formula : Formula}
      (conjunction : Conjunction w tokens formula) : Disjunction w tokens formula
  | join {w : Nat} {before after : List Token} {sign : Token} {left right : Formula}
      (first : Disjunction w before left) (kind : sign.kind = .bar)
      (second : Conjunction (w + wildcards before) after right) :
      Disjunction w (before ++ sign :: after) (.disjunction left right)

/-- Operands without a connective outside parentheses, joined from the left. -/
inductive Conjunction : Nat → List Token → Formula → Prop where
  | single {w : Nat} {tokens : List Token} {formula : Formula}
      (operand : Operand w tokens formula) : Conjunction w tokens formula
  | join {w : Nat} {before after : List Token} {sign : Token} {left right : Formula}
      (first : Conjunction w before left) (kind : sign.kind = .ampersand)
      (second : Operand (w + wildcards before) after right) :
      Conjunction w (before ++ sign :: after) (.conjunction left right)

/-- Negations, formulas in parentheses, relations between terms, and literals. -/
inductive Operand : Nat → List Token → Formula → Prop where
  | negation {w : Nat} {tokens : List Token} {sign : Token} {formula : Formula}
      (kind : sign.kind = .notWord) (operand : Operand w tokens formula) :
      Operand w (sign :: tokens) (.negation formula)
  | group {w : Nat} {tokens : List Token} {opening closing : Token} {formula : Formula}
      (opened : opening.kind = .openParen) (inner : Disjunction w tokens formula)
      (closed : closing.kind = .closeParen) :
      Operand w (opening :: (tokens ++ [closing])) formula
  | relation {w : Nat} {before after : List Token} {sign : Token} {relation : Relation}
      {left right : Term} (first : Expression w before left)
      (listed : (sign.kind, relation) ∈ relations)
      (second : Expression (w + wildcards before) after right) :
      Operand w (before ++ sign :: after) (.comparison relation left right)
  | literal {w : Nat} {tokens : List Token} {term : Term} (expression : Expression w tokens term)
      (plain : term.isPlainLiteral = true) : Operand w tokens (.literal term)

end

theorem relations_solid : ∀ entry ∈ relations, entry.1 ≠ .wildcard := by decide

mutual

theorem Disjunction.consecutive {w : Nat} {tokens : List Token} {formula : Formula} :
    Disjunction w tokens formula → Consecutive w tokens formula.vars
  | .single whole => whole.consecutive
  | .join first kind second => first.consecutive.append (second.consecutive.behind kind)

theorem Conjunction.consecutive {w : Nat} {tokens : List Token} {formula : Formula} :
    Conjunction w tokens formula → Consecutive w tokens formula.vars
  | .single operand => operand.consecutive
  | .join first kind second => first.consecutive.append (second.consecutive.behind kind)

theorem Operand.consecutive {w : Nat} {tokens : List Token} {formula : Formula} :
    Operand w tokens formula → Consecutive w tokens formula.vars
  | .negation kind operand => operand.consecutive.behind kind
  | .group opened inner closed => (inner.consecutive.ended closed).behind opened
  | .relation first listed second =>
    first.consecutive.append (second.consecutive.behind rfl (relations_solid _ listed))
  | .literal expression _ => expression.consecutive

end

end Formula

end AgentSpeak
