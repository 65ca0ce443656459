import AgentSpeak.CommandLine.Options
import AgentSpeak.Server.Payload

namespace AgentSpeak.CommandLine

inductive Command where
  /-- Reads a program and prints it back. -/
  | parse (file : String) (lenient : Bool)
  | showExample
  | run (file : String) (goals : List String) (maxCycles : Option Int) (name : Option String)
      (lenient : Bool)
  | query (file query : String) (runFirst lenient : Bool)
  | create (file : String) (name : Option String) (lenient : Bool)
  | list
  | inspect (id : String)
  /-- Tells an agent of the server something. -/
  | tell (id : String) (kind : EventKind) (literal : String) (maxCycles : Option Int)
  /-- Asks an agent of the server a question. -/
  | ask (id query : String)
  | delete (id : String)

/-- A command, and whether everything shall be reported. -/
structure Invocation where
  verbose : Bool
  command : Command

namespace Command

def file? : Command → Option String
  | parse file _ => some file
  | run file _ _ _ _ => some file
  | query file _ _ _ => some file
  | create file _ _ => some file
  | _ => none

/-- The option to leave out faulty clauses. -/
def lenientOption : OptionSpec :=
  .flag ["--lenient"] "lenient"

/-- The option to limit how many events are handled. -/
def limitOption : OptionSpec :=
  ⟨["--max-cycles"], "max-cycles", true, fun text => (Text.integer? text).isSome, []⟩

def nameOption : OptionSpec :=
  .valued ["--name"] "name"

def addOption : OptionSpec :=
  ⟨["--add"], "add", false, fun _ => true, ["remove"]⟩

def removeOption : OptionSpec :=
  ⟨["--remove"], "remove", false, fun _ => true, ["add"]⟩

def limitOf (parsed : Parsed) : Option Int := do
  Text.integer? (← parsed.valueOf? "max-cycles")

/-- The kind of event that was asked for. -/
def kindOf (parsed : Parsed) : EventKind :=
  if parsed.has "add" then .add
  else if parsed.has "remove" then .remove
  else .achieve

/-- The command about agents of the server that words ask for. -/
def readAgent (arguments : List String) : Except Stop Command := do
  let (leading, words) ← readLeading [.help] arguments
  let command ← match words with
    | "create" :: rest => do
        let parsed ← readArguments [.help, nameOption, lenientOption] 1 rest
        pure (create (parsed.valueAt 0) (parsed.valueOf? "name") (parsed.has "lenient"))
    | "list" :: rest => do
        let _ ← readArguments [.help] 0 rest
        pure list
    | "show" :: rest => do
        let parsed ← readArguments [.help] 1 rest
        pure (inspect (parsed.valueAt 0))
    | "event" :: rest => do
        let parsed ← readArguments [.help, addOption, removeOption, limitOption] 2 rest
        pure (tell (parsed.valueAt 0) (kindOf parsed) (parsed.valueAt 1) (limitOf parsed))
    | "query" :: rest => do
        let parsed ← readArguments [.help] 2 rest
        pure (ask (parsed.valueAt 0) (parsed.valueAt 1))
    | "delete" :: rest => do
        let parsed ← readArguments [.help] 1 rest
        pure (delete (parsed.valueAt 0))
    | _ => throw .usage
  if leading.leftover then throw .usage else return command

def readNamed : List String → Except Stop Command
  | "parse" :: rest => do
      let parsed ← readArguments [.help, lenientOption] 1 rest
      return parse (parsed.valueAt 0) (parsed.has "lenient")
  | "example" :: rest => do
      let _ ← readArguments [.help] 0 rest
      return showExample
  | "run" :: rest => do
      let parsed ← readArguments [.help, .valued ["-g", "--goal"] "goal", limitOption, nameOption,
        lenientOption] 1 rest
      return run (parsed.valueAt 0) (parsed.valuesOf "goal") (limitOf parsed)
        (parsed.valueOf? "name") (parsed.has "lenient")
  | "query" :: rest => do
      let parsed ← readArguments [.help, .flag ["--run"] "run", lenientOption] 2 rest
      return query (parsed.valueAt 0) (parsed.valueAt 1) (parsed.has "run")
        (parsed.has "lenient")
  | "agent" :: rest => readAgent rest
  | _ => throw .usage

end Command

/-- What a command line asks for. Without a command it asks for help. -/
def Invocation.read (arguments : List String) : Except Stop Invocation := do
  let (leading, words) ← readLeading [.help, .flag ["-v", "--verbose"] "verbose"] arguments
  if words.isEmpty then throw (if leading.leftover then .usage else .help)
  let command ← Command.readNamed words
  if leading.leftover then throw .usage
  return ⟨leading.has "verbose", command⟩

end AgentSpeak.CommandLine
