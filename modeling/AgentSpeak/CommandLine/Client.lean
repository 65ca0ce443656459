import AgentSpeak.Server.Routes
import AgentSpeak.Text.Quoted

namespace AgentSpeak.CommandLine

/-- Where the server listens. -/
def serverOrigin : String :=
  "http://localhost:8000"

/-- Where the server keeps its agents. -/
def agentsPath : String :=
  "/api/agents"

/-- Where the server keeps one agent. -/
def agentPath (id : String) : String :=
  agentsPath ++ "/" ++ id

namespace Address

/-- A character that an address can show, apart from those in a list. -/
def isKept (special : String) (c : Char) : Bool :=
  ' ' < c && c.toNat < 0x7f && !special.toList.contains c

/-- Goes on along a path by one more part; the parts so far stand last first. -/
def follow (parts : List String) (part : String) : List String :=
  if part = "." then parts
  else if part = ".." then if parts = [""] then parts else parts.drop 1
  else part :: parts

/-- A path without parts that are one dot or two. -/
def withoutDots (path : String) : String :=
  "/".intercalate ((Text.cut '/' path).foldl follow []).reverse

/-- The address of a path, perhaps with a question and a fragment behind it: each of them with
percent signs for the characters that it cannot show. -/
def ofPath (text : String) : String :=
  let path := text.toList.takeWhile fun c => c != '?' && c != '#'
  let behind := text.toList.drop path.length
  let question := behind.takeWhile (· != '#')
  let fragment := behind.drop question.length
  let pathText := (withoutDots (String.ofList path)).toList
  String.ofList <|
    Text.percentEncode (isKept "\"#<>?`\x7b\x7d") pathText ++
    Text.percentEncode (isKept "\"#<>") question ++
    Text.percentEncode (isKept "\"<>`") fragment

/-- What the server is told of an address. -/
def requestPath (address : String) : String :=
  String.ofList (address.toList.takeWhile (· != '#'))

/-- The words for an address that no request can use, because of a control character. -/
def problem? (text : String) : Option String := do
  let url := (serverOrigin ++ text).toList
  let isControl := fun c : Char => c < ' ' || c.toNat = 0x7f
  let index ← url.findIdx? isControl
  let c ← url[index]?
  return "Invalid non-printable ASCII character in URL, " ++ Text.quoted (String.singleton c) ++
    s!" at position {index}."

end Address

/-- The reason that goes with a status. -/
def reasonOf : Nat → String
  | 307 => "Temporary Redirect"
  | 400 => "Bad Request"
  | 404 => "Not Found"
  | 405 => "Method Not Allowed"
  | 422 => "Unprocessable Entity"
  | _ => ""

def explanationOf (status : Nat) : String :=
  s!"https://developer.mozilla.org/en-US/docs/Web/HTTP/Status/{status}"

/-- The words for an answer that is no success. -/
def failureText (address : String) (response : Response) : String :=
  let headline := fun family : String =>
    family ++ s!" '{response.status} " ++ reasonOf response.status ++ "' for url '" ++
      serverOrigin ++ address ++ "'\n"
  let more := "For more information check: " ++ explanationOf response.status
  match response.location with
  | some location =>
      headline "Redirect response" ++ "Redirect location: '" ++ serverOrigin ++ location ++ "'\n" ++
        more
  | none => headline "Client error" ++ more

end AgentSpeak.CommandLine

namespace AgentSpeak.Json

def textAt (json : Json) (name : String) : String :=
  match json.field? name with
  | some (.string value) => value
  | _ => ""

/-- The number in a field, as text. -/
def numberAt (json : Json) (name : String) : String :=
  match json.field? name with
  | some (.number value) => value.render
  | _ => ""

def itemsAt (json : Json) (name : String) : List Json :=
  match json.field? name with
  | some (.array items) => items
  | _ => []

def textsAt (json : Json) (name : String) : List String :=
  (json.itemsAt name).filterMap text?

end AgentSpeak.Json
