import AgentSpeak.CommandLine.Files
import AgentSpeak.Config
import AgentSpeak.Log
import AgentSpeak.Server.Store

namespace AgentSpeak.CommandLine.Console

/-- Whether the text behind an opening bracket makes a tag of it. -/
def opensTag : List Char → Bool
  | [] => false
  | c :: rest =>
      (('a' ≤ c && c ≤ 'z') || c == '#' || c == '/' || c == '@') &&
        rest.find? (fun other => other == '[' || other == ']') == some ']'

/-- A text without the backslashes that mark a bracket as no tag. -/
def withoutMarks : List Char → List Char
  | '\\' :: '[' :: rest =>
      if opensTag rest then '\\' :: '[' :: withoutMarks rest else '[' :: withoutMarks rest
  | c :: rest => c :: withoutMarks rest
  | [] => []

/-- Whether a console leaves a character out. -/
def isControl (c : Char) : Bool :=
  [0x7, 0x8, 0xb, 0xc, 0xd].contains c.toNat

/-- A text with spaces for tabs, up to the next column that eight divides. -/
def expandTabs : Nat → List Char → List Char
  | _, [] => []
  | _, '\n' :: rest => '\n' :: expandTabs 0 rest
  | column, '\t' :: rest =>
      let width := 8 - column % 8
      List.replicate width ' ' ++ expandTabs (column + width) rest
  | column, c :: rest => c :: expandTabs (column + 1) rest

/-- A message as the console shows it, with a line end. -/
def line (message : String) : String :=
  let shown := (withoutMarks message.toList).filter fun c => !isControl c
  String.ofList (expandTabs 0 shown) ++ "\n"

end AgentSpeak.CommandLine.Console

namespace AgentSpeak.CommandLine

/-- The least level of reports that are shown. -/
inductive Threshold where
  | all
  | debug
  | info
  | warning
  | error
  | critical
  deriving DecidableEq, Repr

namespace Threshold

def name : Threshold → String
  | all => "NOTSET"
  | debug => "DEBUG"
  | info => "INFO"
  | warning => "WARNING"
  | error => "ERROR"
  | critical => "CRITICAL"

/-- The threshold that a word names. Some have a second word. -/
def ofName? : String → Option Threshold
  | "NOTSET" => some all
  | "DEBUG" => some debug
  | "INFO" => some info
  | "WARNING" | "WARN" => some warning
  | "ERROR" => some error
  | "CRITICAL" | "FATAL" => some critical
  | _ => none

/-- Whether a report of a level is shown. -/
def shows : Threshold → LogLevel → Bool
  | all, _ | debug, _ => true
  | info, level => level != .debug
  | warning, level => level == .warning
  | error, _ | critical, _ => false

/-- Each threshold is named by its own word. -/
theorem ofName_name (threshold : Threshold) : ofName? threshold.name = some threshold := by
  cases threshold <;> rfl

end Threshold

structure Surroundings where
  fileAt : String → FileContent
  /-- The value of a variable of the environment. -/
  variableOf : String → Option String
  reachable : Bool

/-- Why a command breaks off without a message of its own. -/
inductive Crash where
  | malformedSetting (malformed : Config.Malformed)
  | unknownThreshold (name : String)
  | file (problem : FileProblem)
  | fault (cause : Fault)

def Crash.message : Crash → String
  | .malformedSetting malformed => malformed.message
  | .unknownThreshold name => "Unknown level: " ++ Text.quoted name
  | .file problem => problem.message
  | .fault cause => cause.message

inductive Ending where
  | exit (code : Nat)
  | crash (crash : Crash)

structure Session where
  output : String
  /-- The reports of the command's own agents, in order. -/
  reports : List LogLine
  threshold : Threshold
  /-- The server's store, once a request has been made. -/
  store : Option Store
  now : String

/-- A computation of a command: it may end early. -/
abbrev CommandM := ReaderT Surroundings (ExceptT Ending (StateM Session))

namespace Session

/-- Before any command. -/
def start (store : Option Store) (now : String) : Session :=
  { output := "", reports := [], threshold := .warning, store, now }

def write (text : String) : CommandM Unit :=
  modify fun session => { session with output := session.output ++ text }

def writeLines (lines : List String) : CommandM Unit :=
  lines.forM fun line => write (line ++ "\n")

def writeMessage (message : String) : CommandM Unit :=
  write (Console.line message)

def report (lines : List LogLine) : CommandM Unit :=
  modify fun session => { session with reports := session.reports ++ lines }

def finish {α : Type} (ending : Ending) : CommandM α :=
  throw ending

/-- Ends the command as failed, with a message on the console. -/
def refuse {α : Type} (message : String) : CommandM α := do
  writeMessage ("✗ " ++ message)
  finish (.exit 1)

def settings : CommandM (Except Config.Malformed Config) := do
  return Config.ofVariables (← read).variableOf

/-- The text of a file, after a warning about an unusual suffix. -/
def readFile (path : String) : CommandM (Except FileProblem String) := do
  match (← read).fileAt path with
  | .missing => return .error (.missing path)
  | content =>
      let suffix := Path.suffix path
      if suffix ≠ ".asl" then
        writeMessage ("Warning: expected .asl extension, got " ++
          (if suffix.isEmpty then "none" else suffix))
      match content with
      | .text text => return .ok (String.ofList (unifyLineEnds text.toList))
      | _ => return .error (.directory path)

def chooseThreshold (verbose : Bool) : CommandM Unit := do
  let threshold ←
    if verbose then pure Threshold.debug
    else match ← settings with
      | .error malformed => finish (.crash (.malformedSetting malformed))
      | .ok config =>
          match Threshold.ofName? config.logLevel with
          | some threshold => pure threshold
          | none => finish (.crash (.unknownThreshold config.logLevel))
  modify fun session => { session with threshold }

end Session

end AgentSpeak.CommandLine
