namespace AgentSpeak.Source

inductive Kind where
  | whitespace
  | lineComment
  | blockComment
  | functor
  | variableName
  | wildcard
  | number
  | string
  | trueWord
  | falseWord
  | notWord
  | divWord
  | modWord
  | ifWord
  | elseWord
  | whileWord
  | openParen
  | closeParen
  | openBracket
  | closeBracket
  | openBrace
  | closeBrace
  | planArrow
  | ruleArrow
  | colon
  | bangBang
  | bang
  | question
  | minusPlus
  | plus
  | minus
  | slash
  | power
  | star
  | ampersand
  | bar
  | lessEqual
  | greaterEqual
  | notEqual
  | equal
  | unify
  | less
  | greater
  | semicolon
  | comma
  | dot
  | label
  | unknown
  | endOfInput
  deriving DecidableEq, Repr

namespace Kind

/-- The operators, each before those it begins with. -/
def operators : List (String × Kind) :=
  [("<-", planArrow), (":-", ruleArrow), ("!!", bangBang), ("-+", minusPlus), ("**", power),
    ("<=", lessEqual), (">=", greaterEqual), ("\\==", notEqual), ("==", equal),
    ("(", openParen), (")", closeParen), ("[", openBracket), ("]", closeBracket),
    ("\x7b", openBrace), ("\x7d", closeBrace), (":", colon), ("!", bang), ("?", question),
    ("+", plus), ("-", minus), ("/", slash), ("*", star), ("&", ampersand), ("|", bar),
    ("=", unify), ("<", less), (">", greater), (";", semicolon), (",", comma), (".", dot),
    ("@", label)]

/-- The words with a meaning of their own. -/
def keywords : List (String × Kind) :=
  [("true", trueWord), ("false", falseWord), ("not", notWord), ("div", divWord),
    ("mod", modWord), ("if", ifWord), ("else", elseWord), ("while", whileWord)]

/-- The name of a kind; operators and keywords are named by their text. -/
def name : Kind → String
  | whitespace => "whitespace"
  | lineComment => "line comment"
  | blockComment => "block comment"
  | functor => "functor"
  | variableName => "variable"
  | wildcard => "wildcard"
  | number => "number"
  | string => "string"
  | unknown => "unknown"
  | endOfInput => "end of input"
  | kind =>
      match (operators ++ keywords).find? (·.2 = kind) with
      | some entry => entry.1
      | none => ""

/-- White space and comments. -/
def isTrivia : Kind → Bool
  | whitespace | lineComment | blockComment => true
  | _ => false

end Kind

/-- A place in a text: characters before it, and its line and column counted from one. -/
structure Position where
  offset : Nat
  line : Nat
  column : Nat
  deriving DecidableEq, Repr

namespace Position

def start : Position :=
  ⟨0, 1, 1⟩

def next (position : Position) (c : Char) : Position :=
  if c = '\n' then ⟨position.offset + 1, position.line + 1, 1⟩
  else ⟨position.offset + 1, position.line, position.column + 1⟩

def after (position : Position) (text : List Char) : Position :=
  text.foldl next position

theorem after_append (position : Position) (first second : List Char) :
    position.after (first ++ second) = (position.after first).after second :=
  List.foldl_append

end Position

/-- A token: its kind, its text and where it begins. Comments and strings may lack their end. -/
structure Token where
  kind : Kind
  text : List Char
  position : Position
  terminated : Bool
  deriving DecidableEq, Repr

namespace Token

def stop (token : Token) : Nat :=
  token.position.offset + token.text.length

/-- White space or a complete comment, which no grammar sees. -/
def isSkipped (token : Token) : Bool :=
  token.kind.isTrivia && token.terminated

end Token

/-- The tokens of a text and the end of input behind them. -/
structure Tokens where
  tokens : List Token
  finish : Token

/-- The tokens that a grammar sees. An unfinished comment stays, to be reported. -/
def Tokens.significant (source : Tokens) : Tokens :=
  { source with tokens := source.tokens.filter fun token => !token.isSkipped }

end AgentSpeak.Source
