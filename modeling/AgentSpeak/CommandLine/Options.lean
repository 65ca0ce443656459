import AgentSpeak.Text.Character

/-!
The words of a command line: options, their values, and other words.

Options begin with a dash. One with a long name can be shortened as long as no other option fits,
and takes its value from behind an equals sign or from the next word; one-letter options can be written
together. Two dashes alone make every later word a plain one.
-/

namespace AgentSpeak.CommandLine

structure OptionSpec where
  /-- The names by which it can be given. -/
  names : List String
  /-- The name under which it is recorded. -/
  key : String
  takesValue : Bool
  accepts : String → Bool
  /-- The options that cannot be given with it. -/
  excludes : List String

namespace OptionSpec

def flag (names : List String) (key : String) : OptionSpec :=
  ⟨names, key, false, fun _ => true, []⟩

def valued (names : List String) (key : String) : OptionSpec :=
  ⟨names, key, true, fun _ => true, []⟩

def help : OptionSpec :=
  flag ["-h", "--help"] "help"

end OptionSpec

/-- Why a command line leads to no command. -/
inductive Stop where
  | usage
  | help
  deriving DecidableEq, Repr

structure Given where
  key : String
  value : String

/-- What a word of the command line is. -/
inductive Word where
  | plain (text : String)
  | separator
  | unknownOption (text : String)
  | option (spec : OptionSpec) (name : String) (explicit : Option String) (text : String)

/-- The word as it was written. -/
def Word.text : Word → String
  | .plain text => text
  | .separator => "--"
  | .unknownOption text => text
  | .option _ _ _ text => text

/-- The names of options with the options they stand for. -/
def namesOf (specs : List OptionSpec) : List (String × OptionSpec) :=
  specs.flatMap fun spec => spec.names.map fun name => (name, spec)

/-- A word cut at its first equals sign, if it has one. -/
def cutAtEquals (text : String) : Option (String × String) :=
  let before := text.toList.takeWhile (· != '=')
  match text.toList.drop before.length with
  | _ :: value => some (String.ofList before, String.ofList value)
  | [] => none

def beginsWith (text start : String) : Bool :=
  start.toList.isPrefixOf text.toList

/-- A number with a minus sign. -/
def isNegativeNumber (text : String) : Bool :=
  match text.toList with
  | '-' :: rest =>
      let whole := rest.takeWhile Text.isDigit
      match rest.drop whole.length with
      | [] => !whole.isEmpty
      | '.' :: fraction => !fraction.isEmpty && fraction.all Text.isDigit
      | _ => false
  | _ => false

/-- The options that a word with a dash can mean when it names none in full. -/
def candidates (specs : List OptionSpec) (text : String) : List Word :=
  if beginsWith text "--" then
    let (start, explicit) := match cutAtEquals text with
      | some (name, value) => (name, some value)
      | none => (text, none)
    (namesOf specs).filterMap fun (name, spec) =>
      if beginsWith name start then some (.option spec name explicit text) else none
  else
    let letter := String.ofList (text.toList.take 2)
    (namesOf specs).filterMap fun (name, spec) =>
      if name = letter then
        some (.option spec name (some (String.ofList (text.toList.drop 2))) text)
      else if beginsWith name text then some (.option spec name none text)
      else none

/-- The option that a word names in full, perhaps with a value behind an equals sign. -/
def namedInFull (specs : List OptionSpec) (text : String) : Option Word :=
  match (namesOf specs).lookup text with
  | some spec => some (.option spec text none text)
  | none => do
      let (name, value) ← cutAtEquals text
      let spec ← (namesOf specs).lookup name
      return .option spec name (some value) text

/-- What a word before any separator is. -/
def classify (specs : List OptionSpec) (text : String) : Except Stop Word :=
  if !beginsWith text "-" || text = "-" then .ok (.plain text)
  else match namedInFull specs text with
    | some word => .ok word
    | none =>
        match candidates specs text with
        | [word] => .ok word
        | _ :: _ :: _ => .error .usage
        | [] =>
            if isNegativeNumber text || text.toList.contains ' ' then .ok (.plain text)
            else .ok (.unknownOption text)

/-- What each word of a command line is. -/
def classifyAll (specs : List OptionSpec) : List String → Except Stop (List Word)
  | [] => .ok []
  | text :: rest =>
      if text = "--" then .ok (.separator :: rest.map Word.plain)
      else do
        let word ← classify specs text
        return word :: (← classifyAll specs rest)

/-- The options that one word gives: its own, and one-letter options written together with it. The
last of them may still need a value from the next word. -/
def unpack (specs : List OptionSpec) : Nat → OptionSpec → String → Option String →
    Except Stop (List (OptionSpec × Option String))
  | 0, _, _, _ => .error .usage
  | fuel + 1, spec, name, explicit =>
      match explicit with
      | none => .ok [(spec, none)]
      | some value =>
          if spec.takesValue then .ok [(spec, some value)]
          else match value.toList with
            | [] => .error .usage
            | letter :: others =>
                if beginsWith name "--" then .error .usage
                else
                  let next := String.ofList ['-', letter]
                  match (namesOf specs).lookup next with
                  | none => .error .usage
                  | some other => do
                      let more := if others.isEmpty then none else some (String.ofList others)
                      return (spec, none) :: (← unpack specs fuel other next more)

/-- Records an option, unless it asks for help or does not fit. -/
def take (given : List Given) (spec : OptionSpec) (value : String) : Except Stop (List Given) :=
  if spec.key = "help" then .error .help
  else if spec.takesValue && !spec.accepts value then .error .usage
  else if given.any fun other => spec.excludes.contains other.key then .error .usage
  else .ok (given ++ [⟨spec.key, value⟩])

/-- Records the options of one word; the last may take the next word as its value. The result also
holds the words that are left. -/
def takeAll (given : List Given) (following : List Word) :
    List (OptionSpec × Option String) → Except Stop (List Given × List Word)
  | [] => .ok (given, following)
  | (spec, some value) :: rest => do takeAll (← take given spec value) following rest
  | (spec, none) :: rest =>
      if spec.takesValue then
        match following with
        | .plain value :: others => do takeAll (← take given spec value) others rest
        | _ => .error .usage
      else do takeAll (← take given spec "") following rest

/-- The options and plain words of a command line, and whether some words had no place in it. -/
structure Parsed where
  given : List Given
  values : List String
  leftover : Bool

namespace Parsed

def has (parsed : Parsed) (key : String) : Bool :=
  parsed.given.any (·.key == key)

/-- The values given to an option, in order. -/
def valuesOf (parsed : Parsed) (key : String) : List String :=
  (parsed.given.filter (·.key == key)).map Given.value

/-- The value given last to an option. -/
def valueOf? (parsed : Parsed) (key : String) : Option String :=
  (parsed.valuesOf key).getLast?

/-- The word at a place among the plain ones. -/
def valueAt (parsed : Parsed) (index : Nat) : String :=
  (parsed.values[index]?).getD ""

end Parsed

/-- Reads words for a command that takes `wanted` more plain words. A separator belongs to the plain
word before or behind it, `besideValue` telling of the one before. -/
def readWords (specs : List OptionSpec) : Nat → Nat → Bool → Parsed → List Word → Except Stop Parsed
  | 0, _, _, parsed, _ => .ok parsed
  | _ + 1, wanted, _, parsed, [] =>
      if wanted ≠ 0 ∨ parsed.leftover then .error .usage else .ok parsed
  | fuel + 1, wanted, besideValue, parsed, word :: rest =>
      match word with
      | .plain text =>
          if wanted = 0 then readWords specs fuel wanted false { parsed with leftover := true } rest
          else
            readWords specs fuel (wanted - 1) true { parsed with values := parsed.values ++ [text] }
              rest
      | .separator =>
          let leftover := parsed.leftover || (wanted = 0 && !besideValue)
          readWords specs fuel wanted false { parsed with leftover } rest
      | .unknownOption _ =>
          readWords specs fuel wanted false { parsed with leftover := true } rest
      | .option spec name explicit text => do
          let options ← unpack specs (text.length + 1) spec name explicit
          let (given, others) ← takeAll parsed.given rest options
          readWords specs fuel wanted false { parsed with given } others

/-- Reads a command line for a command that takes a number of plain words. -/
def readArguments (specs : List OptionSpec) (wanted : Nat) (arguments : List String) :
    Except Stop Parsed := do
  let words ← classifyAll specs arguments
  readWords specs (words.length + 1) wanted false ⟨[], [], false⟩ words

/-- Reads options up to the first plain word, which names a command; the result holds that word and
the words behind it, if there is one. -/
def readLeadingWords (specs : List OptionSpec) :
    Nat → Parsed → List Word → Except Stop (Parsed × List String)
  | 0, parsed, _ => .ok (parsed, [])
  | _ + 1, parsed, [] => .ok (parsed, [])
  | fuel + 1, parsed, word :: rest =>
      match word with
      | .plain text => .ok (parsed, text :: rest.map Word.text)
      | .separator => .error .usage
      | .unknownOption _ => readLeadingWords specs fuel { parsed with leftover := true } rest
      | .option spec name explicit text => do
          let options ← unpack specs (text.length + 1) spec name explicit
          let (given, others) ← takeAll parsed.given rest options
          readLeadingWords specs fuel { parsed with given } others

/-- Reads the options in front of a command, and gives the command's own words. -/
def readLeading (specs : List OptionSpec) (arguments : List String) :
    Except Stop (Parsed × List String) := do
  let words ← classifyAll specs arguments
  readLeadingWords specs (words.length + 1) ⟨[], [], false⟩ words

end AgentSpeak.CommandLine
