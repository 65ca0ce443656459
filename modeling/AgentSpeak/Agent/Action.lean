import AgentSpeak.Agent.Basic

namespace AgentSpeak.Agent

/-- Actions bind without the occurs check. -/
def bindTo (target value : Term) (θ : Substitution) : Option Substitution :=
  θ.unify? false target value

/-- The text by which output shows a term. -/
def displayed (θ : Substitution) (term : Term) : AgentM String := do
  let resolved ← resolve θ term
  written resolved.isWritable
  return resolved.display

/-- Prints the arguments one behind the other. -/
def performPrint (arguments : List Term) (θ : Substitution) : AgentM (Option Substitution) := do
  print (String.join (← arguments.mapM (displayed θ)))
  return some θ

/-- Binds the argument to the agent's name. -/
def performMyName (arguments : List Term) (θ : Substitution) : AgentM (Option Substitution) := do
  match arguments with
  | [target] => return bindTo target (.atom (← get).name) θ
  | _ => throw (.wrongArity "my_name" 1)

/-- Binds the second argument to the number of answers to the first. -/
def performCount (arguments : List Term) (θ : Substitution) : AgentM (Option Substitution) := do
  match arguments with
  | [query, target] =>
      let found ← answers (.literal (θ.apply query)) θ
      return bindTo target (.number (.int found.length)) θ
  | _ => throw (.wrongArity "count" 2)

/-- Binds the third argument to the list of the first one's instances, one for each answer to the
second. -/
def performFindall (arguments : List Term) (θ : Substitution) : AgentM (Option Substitution) := do
  match arguments with
  | [template, query, target] =>
      let goal := θ.apply query
      let found ← answers (.literal goal) θ
      written goal.isWritable
      report .debug (".findall " ++ goal.render ++ s!": {found.length} solutions")
      return bindTo target (.ofList (found.map (·.apply template)) Term.nil) θ
  | _ => throw (.wrongArity "findall" 3)

def performBuiltin (name : String) (arguments : List Term) (θ : Substitution) :
    AgentM (Option Substitution) :=
  match name with
  | "print" => performPrint arguments θ
  | "println" => performPrint arguments θ
  | "fail" => return none
  | "my_name" => performMyName arguments θ
  | "count" => performCount arguments θ
  | "findall" => performFindall arguments θ
  | _ => throw (.unknownAction .builtin name ActionTable.builtinNames)

/-- Binds each argument that is a variable to the field of its name, in the order of the
arguments. -/
def bindFields (fields : List (String × HostValue)) :
    List Term → Substitution → Except Fault (Option Substitution)
  | [], θ => .ok (some θ)
  | .var v :: rest, θ =>
      match fields.lookup v.base with
      | none => bindFields fields rest θ
      | some value =>
          match value.toTerm with
          | .error part => .error (.notConvertible part)
          | .ok term =>
              match bindTo (.var v) term θ with
              | some extended => bindFields fields rest extended
              | none => .ok none
  | _ :: rest, θ => bindFields fields rest θ

/-- The bindings that an environment action's reply asks for. -/
def acceptReply (name : String) (resolved : List Term) (θ : Substitution) :
    HostValue → Except Fault (Option Substitution)
  | .none => .ok (some θ)
  | .bool success => .ok (if success then some θ else none)
  | .record fields => bindFields fields resolved θ
  | value => .error (.badReply name value)

def performUser (name : String) (arguments : List Term) (θ : Substitution) :
    AgentM (Option Substitution) := do
  let table := (← get).actions
  match table.find? name with
  | none => throw (.unknownAction .user name table.names)
  | some action =>
      let resolved ← arguments.mapM (resolve θ)
      record fun journal => { journal with calls := ⟨name, resolved⟩ :: journal.calls }
      ofExcept (acceptReply name resolved θ (action resolved))

def perform (kind : ActionKind) (name : String) (arguments : List Term) (θ : Substitution) :
    AgentM (Option Substitution) :=
  match kind with
  | .builtin => performBuiltin name arguments θ
  | .user => performUser name arguments θ

end AgentSpeak.Agent
