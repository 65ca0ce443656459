import AgentSpeak.Number.Basic
import AgentSpeak.Term.Variable

/-!
Terms: constants, variables and compound terms. Lists are compound terms built from pairs, and
arithmetic expressions are compound terms whose functor is an operator.

Equality of terms (`==`) compares numbers by value, so it is coarser than identity. A copy of a term
equals the term, also where it holds what is not a number.
-/

namespace AgentSpeak

inductive Term where
  | atom (name : String)
  | number (value : Number)
  | string (value : String)
  | var (v : Variable)
  | compound (functor : String) (arguments : List Term)

/-- The name and the number of arguments by which literals are filed. -/
structure Indicator where
  name : String
  arity : Nat
  deriving DecidableEq, Repr

inductive Operator where
  | add
  | sub
  | mul
  | quotient
  | floorQuotient
  | modulo
  | power
  deriving DecidableEq, Repr

namespace Operator

/-- The functor that stands for an operator. -/
def functor : Operator → String
  | add => "+"
  | sub => "-"
  | mul => "*"
  | quotient => "/"
  | floorQuotient => "div"
  | modulo => "mod"
  | power => "**"

/-- The operator that a functor stands for. -/
def ofFunctor? (functor : String) : Option Operator :=
  if functor = "+" then some add
  else if functor = "-" then some sub
  else if functor = "*" then some mul
  else if functor = "/" then some quotient
  else if functor = "div" then some floorQuotient
  else if functor = "mod" then some modulo
  else if functor = "**" then some power
  else none

def precedence : Operator → Nat
  | add | sub => 1
  | mul | quotient | floorQuotient | modulo => 2
  | power => 3

@[simp] theorem ofFunctor?_functor (operator : Operator) :
    ofFunctor? operator.functor = some operator := by
  cases operator <;> rfl

end Operator

namespace Term

mutual

/-- Equality of terms, with numbers compared by value. -/
def beq : Term → Term → Bool
  | .atom x, .atom y => x == y
  | .number x, .number y => x.same y
  | .string x, .string y => x == y
  | .var x, .var y => x == y
  | .compound f xs, .compound g ys => f == g && beqAll xs ys
  | _, _ => false

def beqAll : List Term → List Term → Bool
  | [], [] => true
  | x :: xs, y :: ys => beq x y && beqAll xs ys
  | _, _ => false

end

instance : BEq Term := ⟨beq⟩

instance : Inhabited Term := ⟨.atom "true"⟩

mutual

def bind (f : Variable → Term) : Term → Term
  | .var v => f v
  | .compound functor arguments => .compound functor (bindAll f arguments)
  | .atom name => .atom name
  | .number value => .number value
  | .string value => .string value

/-- Every term of a list with terms put for its variables. -/
def bindAll (f : Variable → Term) : List Term → List Term
  | [] => []
  | term :: rest => bind f term :: bindAll f rest

end

mutual

/-- The variables of a term, in order, as often as they occur. -/
def vars : Term → List Variable
  | .var v => [v]
  | .compound _ arguments => varsAll arguments
  | _ => []

/-- The variables of a list of terms. -/
def varsAll : List Term → List Variable
  | [] => []
  | term :: rest => vars term ++ varsAll rest

end

mutual

/-- How many constants, variables and functors a term is made of. -/
def size : Term → Nat
  | .compound _ arguments => sizeAll arguments + 1
  | _ => 1

/-- The size of a list of terms. -/
def sizeAll : List Term → Nat
  | [] => 0
  | term :: rest => size term + sizeAll rest

end

mutual

def isGround : Term → Bool
  | .var _ => false
  | .compound _ arguments => isGroundAll arguments
  | _ => true

def isGroundAll : List Term → Bool
  | [] => true
  | term :: rest => isGround term && isGroundAll rest

end

/-- A term with more marks on each of its variables. -/
def mark (marks : List String) : Term → Term :=
  bind fun v => .var (v.mark marks)

def truth : Term :=
  .atom "true"

def falsity : Term :=
  .atom "false"

def nil : Term :=
  .atom "[]"

/-- The list with a first item and a rest. -/
def cons (head tail : Term) : Term :=
  .compound "." [head, tail]

/-- The list of the given items, with whatever ends it. -/
def ofList (items : List Term) (tail : Term) : Term :=
  items.foldr cons tail

/-- The items of a list term and whatever ends it. -/
def items : Term → List Term × Term
  | .compound "." [head, tail] =>
      let rest := items tail
      (head :: rest.1, rest.2)
  | term => ([], term)

/-- A literal; without arguments it is an atom. -/
def literal (functor : String) : List Term → Term
  | [] => .atom functor
  | arguments => .compound functor arguments

/-- The name and arity of a literal; other terms have none. -/
def indicator? : Term → Option Indicator
  | .atom name => some ⟨name, 0⟩
  | .compound functor arguments => some ⟨functor, arguments.length⟩
  | _ => none

/-- The parts of a literal: its name and arguments. -/
def literalParts : Term → String × List Term
  | .compound functor arguments => (functor, arguments)
  | .atom name => (name, [])
  | _ => ("", [])

/-- A sum, product or the like, or a negated term. -/
def isExpression : Term → Bool
  | .compound functor [_, _] => (Operator.ofFunctor? functor).isSome
  | .compound functor [_] => functor == "-"
  | _ => false

/-- A literal that is no arithmetic expression. -/
def isPlainLiteral (term : Term) : Bool :=
  term.indicator?.isSome && !term.isExpression

/-- The variables with a name, each once, in order of appearance. -/
def namedVariables (term : Term) : List Variable :=
  (term.vars.filter fun v => !v.isAnonymous).eraseDups

theorem bindAll_eq_map (f : Variable → Term) (terms : List Term) :
    bindAll f terms = terms.map (bind f) := by
  induction terms with
  | nil => rfl
  | cons term rest inductionHypothesis => simp [bindAll, inductionHypothesis]

theorem varsAll_eq_flatMap (terms : List Term) :
    varsAll terms = terms.flatMap vars := by
  induction terms with
  | nil => rfl
  | cons term rest inductionHypothesis => simp [varsAll, inductionHypothesis]

end Term

end AgentSpeak
