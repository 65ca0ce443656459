import AgentSpeak.Beliefs.Basic

/-!
Searches: the answers to a question, found one at a time.

A search stops wherever it needs something from the belief base, and behind each answer. It reads
the base as it is at the moment when it goes on, so what it has read stays as it was read, whatever
happens to the base later.
-/

namespace AgentSpeak

/-- A search that has come to a stop. -/
inductive Search where
  | done
  | failed (fault : Fault)
  /-- An answer, and the search for the others. -/
  | answer (θ : Substitution) (rest : Unit → Search)
  /-- The search needs the facts of a name and arity. -/
  | facts (key : Indicator) (next : List Term → Search)
  /-- The search needs the rules of a name and arity. -/
  | rules (key : Indicator) (next : List Rule → Search)
  /-- The search needs a number that no renaming has used. -/
  | fresh (next : Nat → Search)

namespace Search

instance : Inhabited Search := ⟨done⟩

def single (θ : Substitution) : Search :=
  .answer θ fun _ => .done

/-- The answers of one search, then those of another. -/
def append : Search → (Unit → Search) → Search
  | .done, second => second ()
  | .failed fault, _ => .failed fault
  | .answer θ rest, second => .answer θ fun _ => (rest ()).append second
  | .facts key next, second => .facts key fun facts => (next facts).append second
  | .rules key next, second => .rules key fun rules => (next rules).append second
  | .fresh next, second => .fresh fun n => (next n).append second

/-- The answers of a second search from each answer of the first. -/
def bind : Search → (Substitution → Search) → Search
  | .done, _ => .done
  | .failed fault, _ => .failed fault
  | .answer θ rest, second => (second θ).append fun _ => (rest ()).bind second
  | .facts key next, second => .facts key fun facts => (next facts).bind second
  | .rules key next, second => .rules key fun rules => (next rules).bind second
  | .fresh next, second => .fresh fun n => (next n).bind second

/-- The answer `θ` if a search has none, and no answer if it has one. -/
def refute (θ : Substitution) : Search → Search
  | .done => single θ
  | .failed fault => .failed fault
  | .answer _ _ => .done
  | .facts key next => .facts key fun facts => (next facts).refute θ
  | .rules key next => .rules key fun rules => (next rules).refute θ
  | .fresh next => .fresh fun n => (next n).refute θ

/-- The one answer of a computation, or none, or its fault. -/
def ofResult (result : Except Fault (Option Substitution)) : Search :=
  match result with
  | .ok (some θ) => single θ
  | .ok none => .done
  | .error fault => .failed fault

end Search

/-- How a search goes on to its next answer. -/
inductive Search.Step where
  | ended
  | failed (fault : Fault)
  | found (θ : Substitution) (rest : Search)

namespace BeliefBase

/-- A search resumed with a belief base up to its next answer. -/
def next (base : BeliefBase) : Search → Search.Step × BeliefBase
  | .done => (.ended, base)
  | .failed fault => (.failed fault, base)
  | .answer θ rest => (.found θ (rest ()), base)
  | .facts key more => base.next (more (base.groups.get key))
  | .rules key more => base.next (more (base.ruleGroups.get key))
  | .fresh more =>
      next { base with renamings := base.renamings + 1 } (more (base.renamings + 1))

/-- A search resumed for all answers, and the fault that cut it short, if one did. -/
def all (base : BeliefBase) : Search → List Substitution × Option Fault × BeliefBase
  | .done => ([], none, base)
  | .failed fault => ([], some fault, base)
  | .answer θ rest =>
      let (answers, fault, after) := base.all (rest ())
      (θ :: answers, fault, after)
  | .facts key more => base.all (more (base.groups.get key))
  | .rules key more => base.all (more (base.ruleGroups.get key))
  | .fresh more =>
      all { base with renamings := base.renamings + 1 } (more (base.renamings + 1))

/-- What is left of a search after some of its answers: nothing once it has ended or failed. -/
structure Progress where
  answers : List Substitution
  fault : Option Fault
  rest : Search

/-- A search resumed for at most `limit` answers; it goes no further than the last of them. -/
def take (base : BeliefBase) : Nat → Search → Progress × BeliefBase
  | 0, search => (⟨[], none, search⟩, base)
  | limit + 1, search =>
      match base.next search with
      | (.ended, after) => (⟨[], none, .done⟩, after)
      | (.failed fault, after) => (⟨[], some fault, .done⟩, after)
      | (.found θ rest, after) =>
          let (progress, last) := after.take limit rest
          ({ progress with answers := θ :: progress.answers }, last)

end BeliefBase

end AgentSpeak
