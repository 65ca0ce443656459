import AgentSpeak.Server.Json
import AgentSpeak.Text.Integer
import AgentSpeak.Text.Pieces

namespace AgentSpeak

namespace Json

def text? : Json → Option String
  | .string value => some value
  | _ => none

/-- The truth value that a word stands for. -/
def truthOfWord? (word : String) : Option Bool :=
  if ["1", "t", "true", "y", "yes", "on"].contains word then some true
  else if ["0", "f", "false", "n", "no", "off"].contains word then some false
  else none

/-- A truth value, or what stands for one. -/
def truth? : Json → Option Bool
  | .bool value => some value
  | .number value =>
      if value == .int 1 then some true else if value == .int 0 then some false else none
  | .string value => truthOfWord? value.toLower
  | _ => none

/-- The integer that a floating-point number equals. -/
def wholeOf? : Binary64 → Option Int
  | .finite negative units _ =>
      if units % Binary64.one = 0 then
        some (Binary64.signed negative (units / Binary64.one))
      else none
  | _ => none

/-- The text of an integer without a fraction of zeros behind it. -/
def withoutZeroFraction (text : String) : String :=
  match Text.cut '.' text with
  | [whole, fraction] =>
      if !fraction.isEmpty && fraction.toList.all (· == '0') then whole else text
  | _ => text

/-- An integer, or what stands for one. -/
def integer? : Json → Option Int
  | .bool value => some (if value then 1 else 0)
  | .number (.int value) => some value
  | .number (.float value) => wholeOf? value
  | .string value =>
      let trimmed := String.ofList (Text.trim value.toList)
      if trimmed.toList.all fun c => c.toNat < 0x80 then
        Text.integer? (withoutZeroFraction trimmed)
      else none
  | _ => none

/-- A field read in some way, or a default if it is absent. -/
def fieldOr {α : Type} (json : Json) (name : String) (read : Json → Option α) (default : α) :
    Option α :=
  match json.field? name with
  | none => some default
  | some value => read value

end Json

/-- What a new agent is made of. -/
structure CreateRequest where
  name : String
  source : String
  lenient : Bool
  run : Bool

def CreateRequest.ofJson? (body : Json) : Option CreateRequest := do
  let name ← (← body.field? "name").text?
  let source ← (← body.field? "source").text?
  let lenient ← body.fieldOr "lenient" Json.truth? false
  let run ← body.fieldOr "run" Json.truth? true
  return { name, source, lenient, run }

/-- What can be told to an agent. -/
inductive EventKind where
  | achieve
  | add
  | remove
  deriving DecidableEq, Repr

/-- The word for a kind of event. -/
def EventKind.word : EventKind → String
  | .achieve => "achieve"
  | .add => "add"
  | .remove => "remove"

/-- The kind of event that a field names. -/
def EventKind.ofJson? : Json → Option EventKind
  | .string "achieve" => some .achieve
  | .string "add" => some .add
  | .string "remove" => some .remove
  | _ => none

/-- Something told to an agent, and how many events it may handle then. -/
structure EventRequest where
  kind : EventKind
  literal : String
  maxCycles : Option Int

/-- A limit on events; null sets none. -/
def EventRequest.limit? : Json → Option (Option Int)
  | .null => some none
  | value => value.integer?.map some

def EventRequest.ofJson? (body : Json) : Option EventRequest := do
  let kind ← body.fieldOr "kind" EventKind.ofJson? .achieve
  let literal ← (← body.field? "literal").text?
  let maxCycles ← body.fieldOr "max_cycles" EventRequest.limit? none
  return { kind, literal, maxCycles }

def queryOfJson? (body : Json) : Option String := do
  (← body.field? "query").text?

end AgentSpeak
