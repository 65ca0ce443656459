import AgentSpeak.Fault
import AgentSpeak.Substitution.Basic

namespace AgentSpeak

/-- An operator applied to numbers; `term` is what messages show. Three of the operators have no
value for the divisor zero. -/
def Operator.apply (operator : Operator) (term : Term) (x y : Number) : Except Fault Number :=
  let total := fun result : Except NumberFault Number => result.mapError Fault.number
  let divided := fun result : Except NumberFault Number =>
    if y.isZero then .error (.divisionByZero term) else result.mapError Fault.number
  match operator with
  | .add => total (x.add y)
  | .sub => total (x.sub y)
  | .mul => total (x.mul y)
  | .power => total (x.pow y)
  | .quotient => divided ((x.quotient y).map Number.float)
  | .floorQuotient => divided (x.floorQuotient y)
  | .modulo => divided (x.mod y)

namespace Substitution

/-- The value of a term under bindings, along paths of at most `depth` operators. Bindings are followed
at each operand, operands are computed from left to right, and messages show terms with all their
variables replaced. -/
def evaluateWithin (θ : Substitution) : Nat → Term → Except Fault Number
  | 0, term => .error (.notNumber (θ.apply term))
  | depth + 1, term =>
      match θ.walk term with
      | .number value => .ok value
      | .var v => .error (.unboundInArithmetic v)
      | .compound functor [operand] =>
          if functor = "-" then (θ.evaluateWithin depth operand).map Number.neg
          else .error (.notNumber (θ.apply (.compound functor [operand])))
      | .compound functor [left, right] =>
          match Operator.ofFunctor? functor with
          | some operator => do
              let x ← θ.evaluateWithin depth left
              let y ← θ.evaluateWithin depth right
              operator.apply (θ.apply (.compound functor [left, right])) x y
          | none => .error (.notNumber (θ.apply (.compound functor [left, right])))
      | other => .error (.notNumber (θ.apply other))

/-- The value of a term under bindings. No path is longer than the term is large with all its variables
replaced. -/
def evaluate (θ : Substitution) (term : Term) : Except Fault Number :=
  θ.evaluateWithin (θ.apply term).size term

end Substitution

namespace Term

/-- Whether a term is a number or an expression of numbers. -/
def isNumeric : Term → Bool
  | .number _ => true
  | .compound functor [operand] => functor == "-" && isNumeric operand
  | .compound functor [left, right] =>
      (Operator.ofFunctor? functor).isSome && isNumeric left && isNumeric right
  | _ => false

mutual

/-- A term with every largest numeric part replaced by its value. -/
def fold : Term → Except Fault Term
  | .compound functor arguments =>
      if isNumeric (.compound functor arguments) then
        (Substitution.empty.evaluate (.compound functor arguments)).map Term.number
      else (foldAll arguments).map (Term.compound functor)
  | .atom name => .ok (.atom name)
  | .number value => .ok (.number value)
  | .string value => .ok (.string value)
  | .var v => .ok (.var v)

def foldAll : List Term → Except Fault (List Term)
  | [] => .ok []
  | term :: rest => do
      let folded ← fold term
      return folded :: (← foldAll rest)

end

end Term

/-- A term with its variables replaced and its arithmetic computed. -/
def Substitution.resolve (θ : Substitution) (term : Term) : Except Fault Term :=
  (θ.apply term).fold

end AgentSpeak
