import AgentSpeak.Source.Token
import AgentSpeak.Text.Character

namespace AgentSpeak.Source

/-- The first token of a text: its kind, its characters, whether it is complete, what follows. -/
structure Lexeme where
  kind : Kind
  text : List Char
  rest : List Char
  terminated : Bool

namespace Lexeme

/-- A complete token of the characters that fulfil a condition. -/
def run (kind : Kind) (condition : Char → Bool) (text : List Char) : Lexeme :=
  ⟨kind, text.takeWhile condition, text.dropWhile condition, true⟩

/-- The inside of a block comment up to and with its end, what follows, and whether it ends. -/
def commentTail : List Char → List Char × List Char × Bool
  | [] => ([], [], false)
  | '*' :: '/' :: rest => (['*', '/'], rest, true)
  | c :: rest =>
      let (inside, behind, terminated) := commentTail rest
      (c :: inside, behind, terminated)

/-- The inside of a string up to and with its closing quote, what follows, and whether the quote is
there. A string ends at the end of its line at the latest; a backslash there makes it no string. -/
def stringTail? : List Char → Option (List Char × List Char × Bool)
  | [] => some ([], [], false)
  | '"' :: rest => some (['"'], rest, true)
  | '\n' :: rest => some ([], '\n' :: rest, false)
  | ['\\'] => none
  | '\\' :: c :: rest =>
      if c = '\n' then none
      else (stringTail? rest).map fun (inside, behind, terminated) =>
        ('\\' :: c :: inside, behind, terminated)
  | c :: rest =>
      (stringTail? rest).map fun (inside, behind, terminated) =>
        (c :: inside, behind, terminated)

/-- The digits after a point, with the point; nothing where a point has no digit behind it. -/
def fractionPart : List Char → List Char
  | '.' :: c :: rest => if Text.isDigit c then '.' :: (c :: rest).takeWhile Text.isDigit else []
  | _ => []

/-- An exponent with its mark and sign; nothing where no digit follows. -/
def exponentPart : List Char → List Char
  | mark :: rest =>
      if mark = 'e' ∨ mark = 'E' then
        let sign := match rest with
          | '+' :: _ => ['+']
          | '-' :: _ => ['-']
          | _ => []
        let digits := (rest.drop sign.length).takeWhile Text.isDigit
        if digits.isEmpty then [] else mark :: (sign ++ digits)
      else []
  | [] => []

/-- A number: digits, then perhaps a fraction and an exponent. -/
def number (text : List Char) : Lexeme :=
  let whole := text.takeWhile Text.isDigit
  let afterWhole := text.dropWhile Text.isDigit
  let fraction := fractionPart afterWhole
  let afterFraction := afterWhole.drop fraction.length
  let exponent := exponentPart afterFraction
  ⟨.number, whole ++ fraction ++ exponent, afterFraction.drop exponent.length, true⟩

/-- A letter of the basic alphabet or an underscore. -/
def isNameStart (c : Char) : Bool :=
  c.isAlpha || c == '_'

/-- A character that may continue a name. -/
def isNameRest (c : Char) : Bool :=
  c.isAlphanum || c == '_'

/-- What a name is: a wildcard, a keyword, a variable or a functor. -/
def nameKind (text : List Char) : Kind :=
  if text = ['_'] then .wildcard
  else match Kind.keywords.find? (·.1.toList = text) with
    | some keyword => keyword.2
    | none =>
        match text with
        | c :: _ => if c.isUpper || c == '_' then .variableName else .functor
        | [] => .functor

def name (text : List Char) : Lexeme :=
  let characters := text.takeWhile isNameRest
  ⟨nameKind characters, characters, text.dropWhile isNameRest, true⟩

/-- An operator, or a character that begins no token. -/
def operator (first : Char) (rest : List Char) : Lexeme :=
  match Kind.operators.find? fun entry => entry.1.toList.isPrefixOf (first :: rest) with
  | some entry =>
      ⟨entry.2, entry.1.toList, (first :: rest).drop entry.1.length, true⟩
  | none => ⟨.unknown, [first], rest, true⟩

/-- A token that begins with a quote. -/
def quote (rest : List Char) : Lexeme :=
  match stringTail? rest with
  | some (inside, behind, terminated) => ⟨.string, '"' :: inside, behind, terminated⟩
  | none => ⟨.unknown, ['"'], rest, true⟩

/-- The first token of a text that begins with `first`. -/
def next (first : Char) (rest : List Char) : Lexeme :=
  if Text.isBlank first then run .whitespace Text.isBlank (first :: rest)
  else if Text.isDigit first then number (first :: rest)
  else if isNameStart first then name (first :: rest)
  else match first, rest with
    | '#', _ => run .lineComment (· != '\n') (first :: rest)
    | '/', '/' :: _ => run .lineComment (· != '\n') (first :: rest)
    | '/', '*' :: inside =>
        let (comment, behind, terminated) := commentTail inside
        ⟨.blockComment, '/' :: '*' :: comment, behind, terminated⟩
    | '"', rest => quote rest
    | first, rest => operator first rest

end Lexeme

/-- The tokens of a text that begins at a position, and the position behind it. As many tokens are
read as there are characters at most. -/
def tokensFrom : Nat → Position → List Char → List Token × Position
  | 0, position, _ => ([], position)
  | _ + 1, position, [] => ([], position)
  | fuel + 1, position, first :: rest =>
      let lexeme := Lexeme.next first rest
      let token : Token := ⟨lexeme.kind, lexeme.text, position, lexeme.terminated⟩
      let (tokens, finish) := tokensFrom fuel (position.after lexeme.text) lexeme.rest
      (token :: tokens, finish)

/-- All tokens of a text, white space and comments included. -/
def tokenize (text : String) : Tokens :=
  let characters := text.toList
  let (tokens, finish) := tokensFrom characters.length Position.start characters
  ⟨tokens, ⟨.endOfInput, [], finish, true⟩⟩

end AgentSpeak.Source
