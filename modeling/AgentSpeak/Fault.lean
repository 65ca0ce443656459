import AgentSpeak.Action.HostValue
import AgentSpeak.Number.Arithmetic
import AgentSpeak.Program.Statement
import AgentSpeak.Source.Problem

namespace AgentSpeak

inductive Fault where
  | unreadable (error : Source.ParseError)
  /-- A variable in arithmetic has no value. -/
  | unboundInArithmetic (v : Variable)
  /-- A variable in an ordering has no value. -/
  | unboundInComparison (v : Variable)
  /-- A term in arithmetic is no number. -/
  | notNumber (term : Term)
  /-- A divisor is zero. -/
  | divisionByZero (term : Term)
  | unknownRelation (symbol : String)
  | tooDeep (limit : Int) (goal : Term)
  /-- A term that is no literal cannot be asked. -/
  | notQueryable (term : Term)
  /-- A term that is no literal cannot be believed. -/
  | notAssertable (term : Term)
  /-- A literal with variables cannot be believed. -/
  | openBelief (literal : Term)
  /-- There is no action of this name. -/
  | unknownAction (kind : ActionKind) (name : String) (available : List String)
  /-- A built-in action takes another number of arguments. -/
  | wrongArity (name : String) (expected : Nat)
  /-- An environment action returned something else than success, failure or bindings. -/
  | badReply (name : String) (value : HostValue)
  /-- A value of the surrounding program stands for no term. -/
  | notConvertible (value : HostValue)
  /-- An operation on numbers has no value. -/
  | number (fault : NumberFault)
  /-- A text would hold an integer with too many digits. -/
  | unwritable
  /-- The output stream refuses a line. -/
  | unencodable (reason : String)

inductive FaultKind where
  | parse
  | evaluation
  | resolution
  | action
  | value
  | zeroDivision
  | overflow
  deriving DecidableEq, Repr

namespace Fault

instance : Inhabited Fault := ⟨.number .noIntegerPart⟩

/-- Whether a fault can be described. If its description would hold an integer with too many digits,
that is the fault instead. -/
def isWritable : Fault → Bool
  | notNumber term | divisionByZero term | notQueryable term | notAssertable term
  | openBelief term => term.isWritable
  | tooDeep limit goal => (Number.int limit).isWritable && goal.isWritable
  | badReply _ value | notConvertible value => value.isWritable
  | unwritable => false
  | _ => true

/-- The kind of a fault that can be described. -/
def ownKind : Fault → FaultKind
  | unreadable error => if error.isFatal then .value else .parse
  | unboundInArithmetic _ | unboundInComparison _ | notNumber _ | divisionByZero _
  | unknownRelation _ => .evaluation
  | tooDeep .. | notQueryable _ => .resolution
  | unknownAction .. | wrongArity .. | badReply .. | notConvertible _ => .action
  | notAssertable _ | openBelief _ | unwritable | unencodable _ => .value
  | number .noIntegerPart => .value
  | number .zeroToNegativePower => .zeroDivision
  | number _ => .overflow

def kind (fault : Fault) : FaultKind :=
  if fault.isWritable then fault.ownKind else .value

/-- Whether an intention fails by this fault; the other kinds end the whole run. -/
def failsIntention (fault : Fault) : Bool :=
  match fault.kind with
  | .zeroDivision | .overflow => false
  | _ => true

/-- Whether the fault lies in the program rather than in the numbers it computes. -/
def isProgramFault (fault : Fault) : Bool :=
  match fault.kind with
  | .parse | .evaluation | .resolution | .action => true
  | _ => false

/-- The written names of a literal's variables, once for each variable, in order. -/
def openNames (literal : Term) : List String :=
  (literal.vars.eraseDups.map Variable.base).mergeSort fun x y => decide (x ≤ y)

/-- What is said of a fault that can be described. -/
def ownMessage : Fault → String
  | unreadable error => error.report
  | unboundInArithmetic v => "Unbound variable " ++ v.render ++ " in arithmetic"
  | unboundInComparison v => "Unbound variable " ++ v.render ++ " in comparison"
  | notNumber term => "Not a number: " ++ term.render
  | divisionByZero term => "Division by zero: " ++ term.render
  | unknownRelation symbol => "Unknown relation: " ++ symbol
  | tooDeep limit goal => s!"Resolution deeper than {limit} while proving " ++ goal.render
  | notQueryable term => "Cannot query " ++ term.render ++ ": not a literal"
  | notAssertable term => "Cannot assert " ++ term.render ++ ": not a literal"
  | openBelief literal =>
      "Cannot assert " ++ literal.render ++ ": unbound variables " ++
        ", ".intercalate (openNames literal)
  | unknownAction kind name available =>
      "Unknown " ++ kind.name ++ " action: " ++ name ++ ". Available: " ++
        (if available.isEmpty then "none" else ", ".intercalate available)
  | wrongArity name expected =>
      "." ++ name ++ s!" expects {expected} " ++
        (if expected = 1 then "argument" else "arguments")
  | badReply name value =>
      "Action " ++ name ++ " returned " ++ value.describe ++ "; expected bool, None or dict"
  | notConvertible value => "Cannot convert " ++ value.describe ++ " to a term"
  | number .noIntegerPart => "cannot convert float NaN to integer"
  | number .infiniteIntegerPart => "cannot convert float infinity to integer"
  | number .zeroToNegativePower => "0.0 cannot be raised to a negative power"
  | number .integerOutOfRange => "int too large to convert to float"
  | number .quotientOutOfRange => "integer division result too large for a float"
  | number .powerOutOfRange => "(34, 'Numerical result out of range')"
  | unwritable => Text.beyondLimit ""
  | unencodable reason => reason

def message (fault : Fault) : String :=
  if fault.isWritable then fault.ownMessage else Text.beyondLimit ""

end Fault

end AgentSpeak
