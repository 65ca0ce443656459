import AgentSpeak.Number.Arithmetic
import AgentSpeak.Number.Reader
import AgentSpeak.Source.Parser

/-!
Reading terms. Sums bind more loosely than products, products more loosely than powers, and powers
more loosely than a minus sign. Powers group to the right, the others to the left.

Expressions nest at most as deep as there are tokens, since each nested one follows an opening
token.
-/

namespace AgentSpeak.Term

open Source (Parser Kind)
open Source.Parser

/-- A binary operator of a kind of token, if the kind is one of sums. -/
def additive? : Kind → Option (Term → Term → Term)
  | .plus => some fun left right => .compound "+" [left, right]
  | .minus => some fun left right => .compound "-" [left, right]
  | _ => none

/-- A binary operator of a kind of token, if the kind is one of products. -/
def multiplicative? : Kind → Option (Term → Term → Term)
  | .star => some fun left right => .compound "*" [left, right]
  | .slash => some fun left right => .compound "/" [left, right]
  | .divWord => some fun left right => .compound "div" [left, right]
  | .modWord => some fun left right => .compound "mod" [left, right]
  | _ => none

/-- A token of arithmetic between two operands. -/
def isArithmetic (kind : Kind) : Bool :=
  (additive? kind).isSome || (multiplicative? kind).isSome || kind == .power

/-- The character that an escape in a string stands for; an unknown escape stands for itself. -/
def unescapeChar : Char → Char
  | 'n' => '\n'
  | 't' => '\t'
  | 'r' => '\r'
  | c => c

/-- The text between a string's quotes with its escapes read. -/
def unescape : List Char → List Char
  | '\\' :: c :: rest => unescapeChar c :: unescape rest
  | ['\\'] => []
  | c :: rest => c :: unescape rest
  | [] => []

/-- The number of a token that has been read. -/
def numberOf (token : Source.Token) : Parser Term :=
  match unread : Number.read? token.text with
  | some value => pure (.number value)
  | none => throw ⟨.tooManyDigits, token, fun _ => unread⟩

/-- A term with a minus sign before it: a number literal takes the sign itself. -/
def negate : Term → Term
  | .number value => .number value.neg
  | operand => .compound "-" [operand]

/-- The arguments of a literal in parentheses, none if no parenthesis follows. -/
def parseArguments (expression : Parser Term) (functor : String) : Parser (List Term) := do
  if ← accept .openParen then
    let arguments ←
      if ← check .closeParen then pure []
      else commaSeparated expression (← budget)
    let _ ← expect .closeParen (.argumentEnd functor)
    return arguments
  else return []

/-- A literal whose arguments are read by `expression`. -/
def parseLiteralWith (expression : Parser Term) : Parser Term := do
  let token ← peek
  match token.kind with
  | .trueWord =>
      let _ ← advance
      return truth
  | .falseWord =>
      let _ ← advance
      return falsity
  | .functor =>
      let _ ← advance
      let functor := String.ofList token.text
      return literal functor (← parseArguments expression functor)
  | _ => fail .literal

/-- The rest of a list after its opening bracket. -/
def parseListWith (expression : Parser Term) : Parser Term := do
  if ← accept .closeBracket then return nil
  else
    let items ← commaSeparated expression (← budget)
    let tail ← if ← accept .bar then expression else pure nil
    let _ ← expect .closeBracket .listEnd
    return ofList items tail

def parsePrimaryWith (expression : Parser Term) : Parser Term := do
  let token ← peek
  match token.kind with
  | .number =>
      let _ ← advance
      numberOf token
  | .string =>
      let _ ← advance
      return .string (String.ofList (unescape (token.text.drop 1).dropLast))
  | .variableName =>
      let _ ← advance
      return .var ⟨String.ofList token.text, []⟩
  | .wildcard =>
      let _ ← advance
      return .var (← wildcard)
  | .functor | .trueWord | .falseWord => parseLiteralWith expression
  | .openParen =>
      let _ ← advance
      let inner ← expression
      let _ ← expect .closeParen .parenEnd
      return inner
  | .openBracket =>
      let _ ← advance
      parseListWith expression
  | _ => fail .term

/-- A term with any number of minus signs before it. -/
def parseUnary (primary : Parser Term) : Nat → Parser Term
  | 0 => primary
  | fuel + 1 => do
      if ← accept .minus then return negate (← parseUnary primary fuel)
      else primary

/-- A term or a power of terms, grouped to the right. -/
def parsePower (unary : Parser Term) : Nat → Parser Term
  | 0 => unary
  | fuel + 1 => do
      let base ← unary
      if ← accept .power then return .compound "**" [base, ← parsePower unary fuel]
      else return base

/-- An expression that nests at most `depth` levels deep. -/
def parseWithin : Nat → Parser Term
  | 0 => fail .term
  | depth + 1 =>
      let primary := parsePrimaryWith (parseWithin depth)
      let unary := do parseUnary primary (← budget)
      let power := do parsePower unary (← budget)
      chain additive? (chain multiplicative? power)

def parse : Parser Term := do
  parseWithin (← budget)

/-- A literal: a name with or without arguments. -/
def parseLiteral : Parser Term :=
  parseLiteralWith parse

def read (text : String) : Except Source.ParseError Term :=
  parse.read text

end AgentSpeak.Term
