import AgentSpeak.Number.Basic
import AgentSpeak.Text.Quoted

namespace AgentSpeak

inductive Json where
  | null
  | bool (value : Bool)
  | number (value : Number)
  | string (value : String)
  | array (items : List Json)
  | object (fields : List (String × Json))

namespace Json

instance : Inhabited Json := ⟨null⟩

/-- A whole number. -/
def nat (n : Nat) : Json :=
  .number (.int n)

def strings (values : List String) : Json :=
  .array (values.map Json.string)

def field? (name : String) : Json → Option Json
  | .object fields => fields.lookup name
  | _ => none

end Json

end AgentSpeak

namespace AgentSpeak.Json

/-- A character inside the quotes of a JSON text. -/
def escapeChar (c : Char) : String :=
  if c = '"' then "\\\""
  else if c = '\\' then "\\\\"
  else if c = '\n' then "\\n"
  else if c = '\r' then "\\r"
  else if c = '\t' then "\\t"
  else if c.toNat = 8 then "\\b"
  else if c.toNat = 12 then "\\f"
  else if c.toNat < 0x20 then "\\u" ++ Text.hexadecimal 4 c.toNat
  else String.singleton c

def quote (text : String) : String :=
  "\"" ++ String.join (text.toList.map escapeChar) ++ "\""

/-- The parts of an array or object between its brackets, each on a line of its own. -/
def bracketed (opening closing indent : String) (parts : List String) : String :=
  if parts.isEmpty then opening ++ closing
  else
    let lines := parts.map fun part => indent ++ "  " ++ part
    opening ++ "\n" ++ ",\n".intercalate lines ++ "\n" ++ indent ++ closing

mutual

/-- The text of a value on a line that begins with `indent`. -/
def render (indent : String) : Json → String
  | .null => "null"
  | .bool value => if value then "true" else "false"
  | .number value => value.render
  | .string value => quote value
  | .array items => bracketed "[" "]" indent (renderItems (indent ++ "  ") items)
  | .object fields =>
      bracketed "\x7b" "\x7d" indent (renderFields (indent ++ "  ") fields)

/-- The texts of values on lines that begin with `indent`. -/
def renderItems (indent : String) : List Json → List String
  | [] => []
  | item :: rest => render indent item :: renderItems indent rest

/-- The texts of fields on lines that begin with `indent`. -/
def renderFields (indent : String) : List (String × Json) → List String
  | [] => []
  | (name, value) :: rest =>
      (quote name ++ ": " ++ render indent value) :: renderFields indent rest

end

end AgentSpeak.Json
