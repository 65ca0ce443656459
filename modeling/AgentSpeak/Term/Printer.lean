import AgentSpeak.Term.Basic

namespace AgentSpeak.Term

/-- A character inside a string's quotes: backslashes, quotes and line ends are escaped. -/
def escapeChar (c : Char) : List Char :=
  if c = '\\' then ['\\', '\\']
  else if c = '"' then ['\\', '"']
  else if c = '\n' then ['\\', 'n']
  else [c]

def renderString (value : String) : String :=
  String.ofList ('"' :: value.toList.flatMap escapeChar ++ ['"'])

/-- How tightly the text of a term binds when it is a binary expression. -/
def precedence? : Term → Option Nat
  | .compound functor [_, _] => (Operator.ofFunctor? functor).map Operator.precedence
  | _ => none

/-- An operand's text, in parentheses if it binds less tightly than its place asks. -/
def renderOperand (place : Nat) (operand : Term) (text : String) : String :=
  match operand.precedence? with
  | some precedence => if precedence < place then "(" ++ text ++ ")" else text
  | none => text

/-- A compound term other than a list, from the texts of its arguments. -/
def renderCompound (functor : String) (arguments : List Term) (texts : List String) : String :=
  match arguments, texts, Operator.ofFunctor? functor with
  | [left, right], [leftText, rightText], some operator =>
      renderOperand operator.precedence left leftText ++ " " ++ functor ++ " " ++
        renderOperand (operator.precedence + 1) right rightText
  | [operand], [text], some .sub => "-" ++ renderOperand 4 operand text
  | _, _, _ => functor ++ "(" ++ ", ".intercalate texts ++ ")"

mutual

def render : Term → String
  | .atom name => name
  | .number value => value.render
  | .string value => renderString value
  | .var v => v.render
  | .compound "." [head, tail] => "[" ++ render head ++ renderTail tail ++ "]"
  | .compound functor arguments => renderCompound functor arguments (renderAll arguments)

/-- What follows an item inside the brackets of a list. -/
def renderTail : Term → String
  | .atom name => if name = "[]" then "" else " | " ++ name
  | .number value => " | " ++ value.render
  | .string value => " | " ++ renderString value
  | .var v => " | " ++ v.render
  | .compound "." [head, tail] => ", " ++ render head ++ renderTail tail
  | .compound functor arguments =>
      " | " ++ renderCompound functor arguments (renderAll arguments)

def renderAll : List Term → List String
  | [] => []
  | term :: rest => render term :: renderAll rest

end

mutual

/-- Whether a term has a text: all its numbers need one. -/
def isWritable : Term → Bool
  | .number value => value.isWritable
  | .compound _ arguments => isWritableAll arguments
  | _ => true

def isWritableAll : List Term → Bool
  | [] => true
  | term :: rest => isWritable term && isWritableAll rest

end

/-- The text that output shows: strings lose their quotes. -/
def display : Term → String
  | .string value => value
  | term => term.render

theorem isWritableAll_eq_all (terms : List Term) : isWritableAll terms = terms.all isWritable := by
  induction terms with
  | nil => rfl
  | cons term rest inductionHypothesis => simp [isWritableAll, inductionHypothesis]

@[simp] theorem isWritable_compound (functor : String) (arguments : List Term) :
    (compound functor arguments).isWritable = arguments.all isWritable :=
  isWritableAll_eq_all arguments

end AgentSpeak.Term
