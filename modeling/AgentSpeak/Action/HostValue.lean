import AgentSpeak.Term.Printer
import AgentSpeak.Text.Quoted

namespace AgentSpeak

inductive HostValue where
  | none
  | bool (value : Bool)
  | number (value : Number)
  | text (value : String)
  | list (items : List HostValue)
  | tuple (items : List HostValue)
  | record (fields : List (String × HostValue))
  | term (value : Term)

namespace HostValue

instance : Inhabited HostValue := ⟨.none⟩

/-- Items in parentheses; a single one keeps a comma behind it. -/
def describeTuple : List String → String
  | [item] => "(" ++ item ++ ",)"
  | items => "(" ++ ", ".intercalate items ++ ")"

mutual

/-- A term as a value of the surrounding program, with every part named. -/
def describeTerm : Term → String
  | .atom name => "Atom(name=" ++ Text.quoted name ++ ")"
  | .number value => "Number(value=" ++ value.render ++ ")"
  | .string value => "String(value=" ++ Text.quoted value ++ ")"
  | .var v => "Var(name=" ++ Text.quoted v.name ++ ")"
  | .compound functor arguments =>
      "Struct(functor=" ++ Text.quoted functor ++ ", args=" ++
        describeTuple (describeTerms arguments) ++ ")"

def describeTerms : List Term → List String
  | [] => []
  | first :: rest => describeTerm first :: describeTerms rest

end

mutual

def describe : HostValue → String
  | .none => "None"
  | .bool value => if value then "True" else "False"
  | .number value => value.render
  | .text value => Text.quoted value
  | .list items => "[" ++ ", ".intercalate (describeAll items) ++ "]"
  | .tuple items => describeTuple (describeAll items)
  | .record fields => "\x7b" ++ ", ".intercalate (describeFields fields) ++ "\x7d"
  | .term value => describeTerm value

def describeAll : List HostValue → List String
  | [] => []
  | item :: rest => describe item :: describeAll rest

def describeFields : List (String × HostValue) → List String
  | [] => []
  | (name, value) :: rest =>
      (Text.quoted name ++ ": " ++ describe value) :: describeFields rest

end

mutual

/-- Whether a value can be described: all its numbers need a text. -/
def isWritable : HostValue → Bool
  | .number value => value.isWritable
  | .list items => isWritableAll items
  | .tuple items => isWritableAll items
  | .record fields => isWritableFields fields
  | .term value => value.isWritable
  | _ => true

def isWritableAll : List HostValue → Bool
  | [] => true
  | item :: rest => isWritable item && isWritableAll rest

def isWritableFields : List (String × HostValue) → Bool
  | [] => true
  | (_, value) :: rest => isWritable value && isWritableFields rest

end

mutual

/-- The term that a value stands for. One without a term is given back. -/
def toTerm : HostValue → Except HostValue Term
  | .bool value => .ok (if value then Term.truth else Term.falsity)
  | .number value => .ok (.number value)
  | .text value => .ok (.string value)
  | .list items => (toTerms items).map (Term.ofList · Term.nil)
  | .tuple items => (toTerms items).map (Term.ofList · Term.nil)
  | .term value => .ok value
  | .none => .error .none
  | .record fields => .error (.record fields)

def toTerms : List HostValue → Except HostValue (List Term)
  | [] => .ok []
  | item :: rest => do
      let first ← toTerm item
      return first :: (← toTerms rest)

end

end HostValue

/-- An action of the environment: what it returns for its arguments. It computes this and does nothing
else: it leaves the agent that calls it as it is, and does not fail by a fault of its own. -/
abbrev UserAction := List Term → HostValue

structure ActionTable where
  entries : List (String × UserAction)

namespace ActionTable

def empty : ActionTable :=
  ⟨[]⟩

instance : Inhabited ActionTable := ⟨empty⟩

def find? (table : ActionTable) (name : String) : Option UserAction :=
  table.entries.lookup name

/-- A new action, in place of the old one of the same name. -/
def register (table : ActionTable) (name : String) (action : UserAction) : ActionTable :=
  ⟨(name, action) :: table.entries.filter (·.1 != name)⟩

/-- Names in alphabetical order. -/
def sortNames (names : List String) : List String :=
  names.mergeSort fun x y => decide (x ≤ y)

/-- The names of all actions of the environment, in order. -/
def names (table : ActionTable) : List String :=
  sortNames (table.entries.map Prod.fst)

/-- The names of the actions that every agent has, in order. -/
def builtinNames : List String :=
  ["count", "fail", "findall", "my_name", "print", "println"]

/-- Whether a name is that of an action of either kind. -/
def contains (table : ActionTable) (name : String) : Bool :=
  (table.find? name).isSome || builtinNames.contains name

end ActionTable

end AgentSpeak
