import AgentSpeak.Source.Lexer
import AgentSpeak.Source.Problem

/-!
Parsers: steps that read tokens from the front of a text or report a problem.

The place reached and the number of wildcards seen stay known after a problem, so reading can go on
behind a faulty clause and no wildcard is ever counted twice.
-/

namespace AgentSpeak.Source

/-- What is left to read, and how many wildcards have been read. -/
structure Cursor where
  upcoming : List Token
  finish : Token
  wildcards : Nat

/-- The first token left, or the end of input. -/
def Cursor.token (cursor : Cursor) : Token :=
  cursor.upcoming.head?.getD cursor.finish

/-- The second token left, or the end of input. -/
def Cursor.following (cursor : Cursor) : Token :=
  cursor.upcoming.tail.head?.getD cursor.finish

/-- A parser for values of a type. -/
abbrev Parser (α : Type) := ExceptT Problem (StateM Cursor) α

namespace Parser

/-- A token, unless no grammar accepts it. -/
def wellFormed (token : Token) : Parser Token :=
  match token.problem? with
  | some problem => throw problem
  | none => pure token

/-- The next token, which stays unread. -/
def peek : Parser Token := do
  wellFormed (← get).token

def peekSecond : Parser Token := do
  wellFormed (← get).following

/-- Reads the next token; the end of input is never used up. -/
def advance : Parser Token := do
  let token ← peek
  modify fun cursor => { cursor with upcoming := cursor.upcoming.tail }
  return token

/-- Whether the next token is of a kind. -/
def check (kind : Kind) : Parser Bool := do
  return (← peek).kind = kind

/-- Reads the next token if it is of a kind. -/
def accept (kind : Kind) : Parser Bool := do
  if ← check kind then
    let _ ← advance
    return true
  else return false

def fail {α : Type} (expectation : Expectation) : Parser α := do
  throw ⟨.expected expectation, ← peek, nofun⟩

def expect (kind : Kind) (expectation : Expectation) : Parser Token := do
  if ← check kind then advance else fail expectation

/-- More loops than tokens left never run: each one reads a token. -/
def budget : Parser Nat := do
  return (← get).upcoming.length + 1

/-- The result of a parser, or none with nothing read. A problem that ends the reading at once is
passed on. -/
def attempt {α : Type} (parser : Parser (Option α)) : Parser (Option α) := fun cursor =>
  match parser cursor with
  | (.ok (some value), after) => (.ok (some value), after)
  | (.ok none, after) => (.ok none, { cursor with wildcards := after.wildcards })
  | (.error problem, after) =>
      if problem.isFatal then (.error problem, after)
      else (.ok none, { cursor with wildcards := after.wildcards })

def wildcard : Parser Variable := do
  modify fun cursor => { cursor with wildcards := cursor.wildcards + 1 }
  return .wildcard (← get).wildcards

/-- Operands joined from the left by the operators that stand between them. -/
def chainFrom {α : Type} (operator? : Kind → Option (α → α → α)) (operand : Parser α) :
    Nat → α → Parser α
  | 0, left => pure left
  | fuel + 1, left => do
      match operator? (← peek).kind with
      | none => pure left
      | some combine =>
          let _ ← advance
          let right ← operand
          chainFrom operator? operand fuel (combine left right)

/-- One operand or more, joined from the left. -/
def chain {α : Type} (operator? : Kind → Option (α → α → α)) (operand : Parser α) :
    Parser α := do
  let left ← operand
  chainFrom operator? operand (← budget) left

/-- One item or more, with commas between them. -/
def commaSeparated {α : Type} (item : Parser α) : Nat → Parser (List α)
  | 0 => pure []
  | fuel + 1 => do
      let first ← item
      if ← accept .comma then return first :: (← commaSeparated item fuel)
      else return [first]

/-- Reads to the end of the text, with a full stop before it or not. -/
def finish : Parser Unit := do
  let _ ← accept .dot
  let _ ← expect .endOfInput .endOfInput

/-- The cursor at the beginning of a text. -/
def start (text : String) : Cursor :=
  let source := (tokenize text).significant
  ⟨source.tokens, source.finish, 0⟩

/-- Reads a whole text with a parser. -/
def read {α : Type} (parser : Parser α) (text : String) : Except ParseError α :=
  match (do let value ← parser; finish; return value : Parser α) (start text) with
  | (.ok value, _) => .ok value
  | (.error problem, _) => .error (.ofProblem (Text.lines text) problem)

end Parser

end AgentSpeak.Source
