namespace AgentSpeak.Text

/-- The digit of base 16 with a value. -/
def hexDigit (value : Nat) : Char :=
  (Nat.digitChar value).toUpper

/-- The value of a digit of base 16. -/
def hexValue? (c : Char) : Option Nat :=
  if c.isDigit then some (c.toNat - '0'.toNat)
  else if 'a' ≤ c ∧ c ≤ 'f' then some (c.toNat - 'a'.toNat + 10)
  else if 'A' ≤ c ∧ c ≤ 'F' then some (c.toNat - 'A'.toNat + 10)
  else none

/-- A text with percent signs for the characters that are not kept. -/
def percentEncode (kept : Char → Bool) (text : List Char) : List Char :=
  text.flatMap fun c =>
    if kept c then [c]
    else (String.singleton c).toUTF8.toList.flatMap fun byte =>
      ['%', hexDigit (byte.toNat / 16), hexDigit (byte.toNat % 16)]

def percentBytes : List Char → List UInt8
  | '%' :: high :: low :: rest =>
      match hexValue? high, hexValue? low with
      | some h, some l => .ofNat (16 * h + l) :: percentBytes rest
      | _, _ => '%'.toNat.toUInt8 :: percentBytes (high :: low :: rest)
  | c :: rest => (String.singleton c).toUTF8.toList ++ percentBytes rest
  | [] => []

/-- The text that a path denotes, or the path itself if its bytes are no text. -/
def percentDecode (path : String) : String :=
  (String.fromUTF8? ⟨(percentBytes path.toList).toArray⟩).getD path

end AgentSpeak.Text
