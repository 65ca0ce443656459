namespace AgentSpeak

inductive LogLevel where
  | debug
  | info
  | warning
  deriving DecidableEq, Repr

def LogLevel.name : LogLevel → String
  | debug => "DEBUG"
  | info => "INFO"
  | warning => "WARNING"

structure LogLine where
  level : LogLevel
  message : String
  deriving DecidableEq, Repr

/-- A report's text with its level in front. -/
def LogLine.render (line : LogLine) : String :=
  line.level.name ++ " " ++ line.message

end AgentSpeak
