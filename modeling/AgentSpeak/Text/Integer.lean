import AgentSpeak.Text.Character

namespace AgentSpeak.Text

/-- The most digits that an integer has in a text. -/
def digitLimit : Nat :=
  4300

/-- What is said of an integer with too many digits; `found` tells what was seen of it. -/
def beyondLimit (found : String) : String :=
  s!"Exceeds the limit ({digitLimit} digits) for integer string conversion" ++ found ++
    "; use sys.set_int_max_str_digits() to increase the limit"

/-- What is said of a text with more digits than an integer has. -/
def tooManyDigits (count : Nat) : String :=
  beyondLimit s!": value has {count} digits"

/-- A blank that may stand around an integer; the four information separators may not. -/
def isPadding (c : Char) : Bool :=
  isBlank c && !(0x1c ≤ c.toNat && c.toNat ≤ 0x1f)

/-- Whether digits come one by one or with single underscores between them. -/
def isDigitRow : List Char → Bool
  | [] => false
  | [c] => isDigit c
  | c :: '_' :: rest => isDigit c && isDigitRow rest
  | c :: rest => isDigit c && isDigitRow rest

/-- The sign of an integer's text, true if it is negative, and its digits. -/
def integerParts? (text : String) : Option (Bool × List Char) :=
  let core := ((text.toList.dropWhile isPadding).reverse.dropWhile isPadding).reverse
  let (negative, digits) := match core with
    | '-' :: digits => (true, digits)
    | '+' :: digits => (false, digits)
    | digits => (false, digits)
  if isDigitRow digits then some (negative, digits) else none

/-- How many digits a text has that has the form of an integer. -/
def digitCount? (text : String) : Option Nat :=
  (integerParts? text).map fun (_, digits) => (digits.filter isDigit).length

def integer? (text : String) : Option Int := do
  let (negative, digits) ← integerParts? text
  guard ((digits.filter isDigit).length ≤ digitLimit)
  return if negative then -(number digits : Int) else number digits

end AgentSpeak.Text
