import AgentSpeak.Text.Pieces
import AgentSpeak.Text.Quoted

namespace AgentSpeak.CommandLine

inductive FileContent where
  | missing
  | directory
  | text (content : String)

inductive FileProblem where
  | missing (path : String)
  | directory (path : String)

namespace Path

/-- The parts of a path between its slashes, without those that lead nowhere else. -/
def components (path : String) : List String :=
  (Text.cut '/' path).filter fun part => !part.isEmpty && part != "."

/-- A path in its shortest form. -/
def normal (path : String) : String :=
  let joined := "/".intercalate (components path)
  if path.toList.head? = some '/' then "/" ++ joined
  else if joined.isEmpty then "."
  else joined

/-- The name of the file at a path. -/
def fileName (path : String) : String :=
  ((components path).getLast?).getD ""

/-- A file name cut before its last dot. It is not cut where one of the sides would be empty. -/
def cutAtSuffix (name : String) : String × String :=
  let reversed := name.toList.reverse
  let ending := reversed.takeWhile (· != '.')
  match reversed.drop ending.length with
  | [] => (name, "")
  | _ :: front =>
      if front.isEmpty || ending.isEmpty then (name, "")
      else (String.ofList front.reverse, String.ofList ('.' :: ending.reverse))

/-- The name of the file at a path without its suffix. -/
def stem (path : String) : String :=
  (cutAtSuffix (fileName path)).1

/-- The suffix of the file at a path, with its dot. -/
def suffix (path : String) : String :=
  (cutAtSuffix (fileName path)).2

end Path

/-- The words for a problem with a file. -/
def FileProblem.message : FileProblem → String
  | missing path => "File not found: " ++ path
  | directory path => "[Errno 21] Is a directory: " ++ Text.quoted (Path.normal path)

/-- A text in which every line end is a line feed alone. -/
def unifyLineEnds : List Char → List Char
  | '\r' :: '\n' :: rest => '\n' :: unifyLineEnds rest
  | '\r' :: rest => '\n' :: unifyLineEnds rest
  | c :: rest => c :: unifyLineEnds rest
  | [] => []

end AgentSpeak.CommandLine
