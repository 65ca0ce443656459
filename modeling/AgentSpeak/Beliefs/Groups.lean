import AgentSpeak.Term.Basic

namespace AgentSpeak

/-- Items of a type in groups by name and arity. -/
abbrev Groups (α : Type) := List (Indicator × List α)

namespace Groups

variable {α : Type}

/-- The items filed under a name and arity. -/
def get (groups : Groups α) (key : Indicator) : List α :=
  (groups.lookup key).getD []

/-- The groups with the items of one of them replaced; a new group comes last. -/
def put (key : Indicator) (items : List α) : Groups α → Groups α
  | [] => [(key, items)]
  | (other, old) :: rest =>
      if other = key then (key, items) :: rest else (other, old) :: put key items rest

/-- The groups with one more item, behind the others of its group. -/
def push (groups : Groups α) (key : Indicator) (item : α) : Groups α :=
  groups.put key (groups.get key ++ [item])

def toList (groups : Groups α) : List α :=
  groups.flatMap Prod.snd

theorem get_put (groups : Groups α) (key other : Indicator) (items : List α) :
    get (put key items groups) other = if other = key then items else get groups other := by
  induction groups with
  | nil =>
    by_cases same : other = key
    · simp [put, get, same]
    · have different : (other == key) = false := by simpa using same
      simp [put, get, same, List.lookup_cons, different]
  | cons entry rest inductionHypothesis =>
    obtain ⟨first, old⟩ := entry
    unfold put
    split
    next isKey =>
      subst isKey
      by_cases same : other = first
      · simp [get, same]
      · have different : (other == first) = false := by simpa using same
        simp [get, same, List.lookup_cons, different]
    next isOther =>
      by_cases same : other = first
      · subst same
        simp [get, isOther]
      · have different : (other == first) = false := by simpa using same
        simpa [get, List.lookup_cons, different] using inductionHypothesis

end Groups

end AgentSpeak
