import AgentSpeak.Text.Pieces

namespace AgentSpeak

/-- A variable: its written name and the marks of its renamings, the earliest first. -/
structure Variable where
  base : String
  marks : List String
  deriving DecidableEq, Repr

namespace Variable

/-- The variable of a full name, in which each mark follows a hash sign. -/
def ofName (name : String) : Variable :=
  match Text.cut '#' name with
  | [] => ⟨name, []⟩
  | base :: marks => ⟨base, marks⟩

def name (v : Variable) : String :=
  "#".intercalate (v.base :: v.marks)

/-- The variable of the `n`-th wildcard of a text. -/
def wildcard (n : Nat) : Variable :=
  ⟨"_", [toString n]⟩

/-- A variable that stands for a wildcard has no name to show. -/
def isAnonymous (v : Variable) : Bool :=
  v.base == "_" && !v.marks.isEmpty

def mark (marks : List String) (v : Variable) : Variable :=
  { v with marks := v.marks ++ marks }

/-- The variable without its name, kept apart by the name as a mark. -/
def hide (v : Variable) : Variable :=
  ⟨"_", v.base :: v.marks⟩

/-- The text of a variable leaves its marks out. -/
def render (v : Variable) : String :=
  v.base

def sorted (names : List Variable) : List Variable :=
  names.mergeSort fun v w => decide (v.name ≤ w.name)

end Variable

end AgentSpeak
