import AgentSpeak.CommandLine.AgentCommands
import AgentSpeak.CommandLine.Command
import AgentSpeak.CommandLine.ProgramCommands

namespace AgentSpeak.CommandLine

def Command.execute : Command → CommandM Unit
  | parse file lenient => parseCommand file lenient
  | showExample => exampleCommand
  | run file goals maxCycles name lenient => runCommand file goals maxCycles name lenient
  | query file text runFirst lenient => queryCommand file text runFirst lenient
  | create file name lenient => createCommand file name lenient
  | list => listCommand
  | inspect id => inspectCommand id
  | tell id kind literal maxCycles => tellCommand id kind literal maxCycles
  | ask id text => askCommand id text
  | delete id => deleteCommand id

/-- Carries out an invocation, once it is known which reports are shown. -/
def Invocation.execute (invocation : Invocation) : CommandM Unit := do
  Session.chooseThreshold invocation.verbose
  invocation.command.execute

/-- What the program says about its use. -/
def helpLines : List String :=
  [ "usage: pheres [-h] [-v] \x7bparse,example,run,query,agent\x7d ...",
    "",
    "AgentSpeak interpreter",
    "",
    "positional arguments:",
    "  \x7bparse,example,run,query,agent\x7d",
    "    parse               Parse an .asl program and print it back",
    "    example             Show an example program",
    "    run                 Run an agent until it has no events left",
    "    query               Print every solution of a query",
    "    agent               Agents hosted by the API server",
    "",
    "options:",
    "  -h, --help            show this help message and exit",
    "  -v, --verbose         Debug logging" ]

/-- Carries out the command of a command line. -/
def executeArguments (arguments : List String) : CommandM Unit := do
  match Invocation.read arguments with
  | .error .usage => Session.finish (.exit 2)
  | .error .help => Session.writeLines helpLines
  | .ok invocation => invocation.execute

/-- Runs a command line. The result tells how it ended and what it left behind. -/
def runArguments (surroundings : Surroundings) (session : Session) (arguments : List String) :
    Ending × Session :=
  match ((executeArguments arguments).run surroundings).run.run session with
  | (.ok _, after) => (.exit 0, after)
  | (.error ending, after) => (ending, after)

end AgentSpeak.CommandLine
