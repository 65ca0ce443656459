import AgentSpeak.Limits
import AgentSpeak.Text.Integer
import AgentSpeak.Text.Pieces
import AgentSpeak.Text.Quoted
import AgentSpeak.Text.Uppercase

namespace AgentSpeak

/-- Limits, the level of reports to show, and the origins whose requests a server accepts. -/
structure Config extends Limits where
  logLevel : String := "WARNING"
  corsOrigins : List String := []
  deriving DecidableEq, Repr

namespace Config

/-- A setting that should be a number and is not, or has too many digits. -/
structure Malformed where
  text : String

/-- The words for a malformed setting; a long text is cut. -/
def Malformed.message (malformed : Malformed) : String :=
  match Text.digitCount? malformed.text with
  | some count => Text.tooManyDigits count
  | none =>
      "invalid literal for int() with base 10: " ++
        String.ofList ((Text.quoted malformed.text).toList.take 200)

/-- The number of a setting, or what it is without the setting. -/
def integerSetting (setting : Option String) (default : Int) : Except Malformed Int :=
  match setting with
  | none => .ok default
  | some text =>
      match Text.integer? text with
      | some value => .ok value
      | none => .error ⟨text⟩

def isOn (setting : Option String) : Bool :=
  match setting with
  | none => false
  | some text => ["1", "true", "yes"].contains text.toLower

/-- The origins of a list with commas, without blanks around them. -/
def origins (setting : Option String) : List String :=
  let pieces := Text.pieces ',' (setting.getD "").toList
  (pieces.map fun piece => String.ofList (Text.trim piece)).filter fun origin => !origin.isEmpty

def variableNames : List String :=
  ["PHERES_MAX_DEPTH", "PHERES_MAX_STEPS", "PHERES_OCCURS_CHECK", "PHERES_LOG_LEVEL",
    "PHERES_CORS_ORIGINS"]

/-- The settings that the variables of an environment ask for. -/
def ofVariables (valueOf : String → Option String) : Except Malformed Config := do
  let defaults : Config := {}
  let maxDepth ← integerSetting (valueOf "PHERES_MAX_DEPTH") defaults.maxDepth
  let maxSteps ← integerSetting (valueOf "PHERES_MAX_STEPS") defaults.maxSteps
  return {
    maxDepth
    maxSteps
    occursCheck := isOn (valueOf "PHERES_OCCURS_CHECK")
    logLevel := Text.upper ((valueOf "PHERES_LOG_LEVEL").getD defaults.logLevel)
    corsOrigins := origins (valueOf "PHERES_CORS_ORIGINS") }

end Config

end AgentSpeak
