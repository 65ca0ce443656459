import AgentSpeak.CommandLine.Execution

namespace AgentSpeak

open CommandLine

/-- What the file system holds at a path. -/
def fileContent (path : String) : IO FileContent :=
  try
    return .text (← IO.FS.readFile (Path.normal path))
  catch
    | .noFileOrDirectory .. => return .missing
    | .inappropriateType _ code _ =>
        return if code = 21 then .directory else .missing
    | error => throw error

/-- The files that a command line needs, with what they hold. -/
def neededFiles (arguments : List String) : IO (List (String × FileContent)) := do
  let needed := match Invocation.read arguments with
    | .ok invocation => invocation.command.file?
    | .error _ => none
  needed.toList.mapM fun path => return (path, ← fileContent path)

def environment : IO (List (String × String)) := do
  let settings ← Config.variableNames.mapM fun name => return (name, ← IO.getEnv name)
  return settings.filterMap fun (name, value) => value.map fun text => (name, text)

/-- Carries out a command line and gives its exit code. -/
def runProgram (arguments : List String) : IO UInt32 := do
  let files ← neededFiles arguments
  let settings ← environment
  let surroundings : Surroundings :=
    { fileAt := fun path => (files.lookup path).getD .missing
      variableOf := fun name => settings.lookup name
      reachable := false }
  let (ending, session) := runArguments surroundings (Session.start none "") arguments
  for line in session.reports do
    if session.threshold.shows line.level then IO.eprintln line.render
  IO.print session.output
  match ending with
  | .exit 2 =>
      IO.eprintln (helpLines.headD "")
      return 2
  | .exit code => return code.toUInt32
  | .crash crash =>
      IO.eprintln crash.message
      return 1

end AgentSpeak

def main (arguments : List String) : IO UInt32 :=
  AgentSpeak.runProgram arguments
