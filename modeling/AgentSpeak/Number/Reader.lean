import AgentSpeak.Number.Basic

namespace AgentSpeak.Number

/-- A row of digits after an optional sign. -/
def readSigned : List Char → Int
  | '-' :: digits => -(Text.number digits : Int)
  | '+' :: digits => Text.number digits
  | digits => Text.number digits

/-- The floating-point number that a text with a point or an exponent denotes. -/
def readDecimal (text : List Char) : Binary64 :=
  let mantissa := text.takeWhile fun c => c != 'e' && c != 'E'
  let exponent := text.drop (mantissa.length + 1)
  let whole := mantissa.takeWhile (· != '.')
  let fraction := mantissa.drop (whole.length + 1)
  .ofDecimal (Text.number (whole ++ fraction)) (readSigned exponent - fraction.length)

/-- The number that a text denotes: an integer unless it has a point or an exponent. An integer with
too many digits is not read, however small its value is. -/
def read? (text : List Char) : Option Number :=
  if text.all Text.isDigit then
    if text.length ≤ Text.digitLimit then some (.int (Text.number text)) else none
  else some (.float (readDecimal text))

end AgentSpeak.Number
