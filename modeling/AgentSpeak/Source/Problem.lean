import AgentSpeak.Number.Reader
import AgentSpeak.Source.Token
import AgentSpeak.Term.Printer
import AgentSpeak.Text.Quoted

namespace AgentSpeak.Source

/-- What the grammar asks for at a place. -/
inductive Expectation where
  | token (kind : Kind)
  | dotAfterGoal
  | dotAfterRule
  | dotAfterFact
  | dotAfterPlan
  | parenBeforeCondition
  | parenAfterCondition
  | blockStart
  | blockEnd
  | listEnd
  | parenEnd
  | endOfInput
  | eventSign
  | actionName
  | literal
  | term
  | argumentEnd (functor : String)

def Expectation.describe : Expectation → String
  | token kind => Text.quoted kind.name
  | dotAfterGoal => "'.' after initial goal"
  | dotAfterRule => "'.' after rule"
  | dotAfterFact => "'.' after fact"
  | dotAfterPlan => "'.' after plan"
  | parenBeforeCondition => "'(' before condition"
  | parenAfterCondition => "')' after condition"
  | blockStart => "'\x7b'"
  | blockEnd => "'\x7d' to close block"
  | listEnd => "']' to close list"
  | parenEnd => "')'"
  | endOfInput => "end of input"
  | eventSign => "'+' or '-' to start a triggering event"
  | actionName => "an internal action name right after '.'"
  | literal => "a literal"
  | term => "a term"
  | argumentEnd functor => "',' or ')' in arguments of " ++ functor

inductive Cause where
  | unterminatedComment
  | unterminatedString
  | unexpectedCharacter
  /-- The token is an integer with too many digits. -/
  | tooManyDigits
  /-- The token is not what the grammar asks for. -/
  | expected (expectation : Expectation)
  /-- A belief that begins here has variables. -/
  | openFact (fact : Term)
  /-- The term that begins here is no statement. -/
  | notStatement (term : Term)
  /-- The term that begins here is no formula. -/
  | notFormula (term : Term)

/-- Whether a problem ends the reading at once. No other reading is tried then, and no clause is
skipped. -/
def Cause.isFatal : Cause → Bool
  | .tooManyDigits => true
  | _ => false

/-- What is wrong, and the token at which it is noticed. Only an integer that is not read has too many
digits. -/
structure Problem where
  cause : Cause
  token : Token
  unread : cause.isFatal = true → Number.read? token.text = none

def Problem.isFatal (problem : Problem) : Bool :=
  problem.cause.isFatal

def Token.describe (token : Token) : String :=
  if token.kind = .endOfInput then "end of input"
  else Text.quoted (String.ofList token.text)

def Problem.message (problem : Problem) : String :=
  match problem.cause with
  | .unterminatedComment => "unterminated block comment"
  | .unterminatedString => "unterminated string"
  | .unexpectedCharacter =>
      "unexpected character " ++ Text.quoted (String.ofList problem.token.text)
  | .tooManyDigits => Text.tooManyDigits problem.token.text.length
  | .expected expectation =>
      "expected " ++ expectation.describe ++ ", found " ++ problem.token.describe
  | .openFact fact => "fact " ++ fact.render ++ " has unbound variables"
  | .notStatement term => "expected a plan body statement, found " ++ term.render
  | .notFormula term => "expected a literal or relation, found " ++ term.render

/-- The problem of a token that no grammar accepts. -/
def Token.problem? (token : Token) : Option Problem :=
  match token.kind, token.terminated with
  | .blockComment, false => some ⟨.unterminatedComment, token, nofun⟩
  | .string, false => some ⟨.unterminatedString, token, nofun⟩
  | .unknown, _ => some ⟨.unexpectedCharacter, token, nofun⟩
  | _, _ => none

/-- A problem together with the line of the text that it lies in. -/
structure ParseError extends Problem where
  sourceLine : String

namespace ParseError

/-- A problem with its line looked up. -/
def ofProblem (lines : List String) (problem : Problem) : ParseError :=
  { problem with sourceLine := (lines[problem.token.position.line - 1]?).getD "" }

/-- The line that holds the problem, counted from one. -/
def line (error : ParseError) : Nat :=
  error.token.position.line

/-- The column where the problem begins, counted from one. -/
def column (error : ParseError) : Nat :=
  error.token.position.column

/-- The full report: place, message, and the line with a mark below the place. A problem that ends
the reading at once is reported without its place. -/
def report (error : ParseError) : String :=
  let headline := s!"Line {error.line}, column {error.column}: {error.message}"
  if error.isFatal then error.message
  else if error.sourceLine.isEmpty then headline
  else headline ++ "\n  " ++ error.sourceLine ++ "\n  " ++ "".pushn ' ' (error.column - 1) ++ "^"

end ParseError

end AgentSpeak.Source
