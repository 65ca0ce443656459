import AgentSpeak.Beliefs.Groups
import AgentSpeak.Fault
import AgentSpeak.Program.Basic
import AgentSpeak.Substitution.Unification

namespace AgentSpeak

/-- What an agent believes: facts, rules, and how many times a rule has been renamed apart. -/
structure BeliefBase where
  groups : Groups Term
  ruleGroups : Groups Rule
  renamings : Nat

namespace BeliefBase

def empty : BeliefBase :=
  ⟨[], [], 0⟩

instance : Inhabited BeliefBase := ⟨empty⟩

def facts (base : BeliefBase) : List Term :=
  base.groups.toList

def rules (base : BeliefBase) : List Rule :=
  base.ruleGroups.toList

/-- The facts that share a term's name and arity. -/
def factsLike (base : BeliefBase) (term : Term) : List Term :=
  match term.indicator? with
  | some key => base.groups.get key
  | none => []

/-- How many facts there are, counted group by group. -/
def size (base : BeliefBase) : Nat :=
  base.groups.foldl (fun total group => total + group.2.length) 0

def contains (base : BeliefBase) (fact : Term) : Bool :=
  (base.factsLike fact).any (· == fact)

/-- The base with other facts in the group of a term. -/
def withFactsLike (base : BeliefBase) (term : Term) (facts : List Term) : BeliefBase :=
  match term.indicator? with
  | some key => { base with groups := base.groups.put key facts }
  | none => base

/-- The name and arity under which a ground literal is filed. -/
def filing (fact : Term) : Except Fault Indicator :=
  match fact.indicator? with
  | none => .error (.notAssertable fact)
  | some key => if fact.isGround then .ok key else .error (.openBelief fact)

/-- A fact added to the base, and whether it is new. -/
def assert (base : BeliefBase) (fact : Term) : Except Fault (Bool × BeliefBase) := do
  let key ← filing fact
  if base.contains fact then return (false, base)
  else return (true, { base with groups := base.groups.push key fact })

/-- Whether a fact is an instance of a pattern. -/
def isInstance (occursCheck : Bool) (pattern fact : Term) : Bool :=
  (Substitution.empty.unify? occursCheck pattern fact).isSome

/-- Every instance of a pattern, taken out of the base. -/
def retract (occursCheck : Bool) (base : BeliefBase) (pattern : Term) : List Term × BeliefBase :=
  let facts := base.factsLike pattern
  let removed := facts.filter (isInstance occursCheck pattern)
  if removed.isEmpty then ([], base)
  else (removed, base.withFactsLike pattern (facts.filter fun fact => !removed.any (· == fact)))

/-- The first of some facts that a pattern matches under `θ`, the bindings that make them equal, and
the other facts. -/
def splitFirst? (occursCheck : Bool) (pattern : Term) (θ : Substitution) :
    List Term → Option (Term × Substitution × List Term)
  | [] => none
  | fact :: rest =>
      match θ.unify? occursCheck pattern fact with
      | some extended => some (fact, extended, rest)
      | none =>
          (splitFirst? occursCheck pattern θ rest).map fun (found, extended, others) =>
            (found, extended, fact :: others)

/-- The first fact that a pattern matches under `θ`, taken out of the base, with the bindings that
make them equal. -/
def remove? (occursCheck : Bool) (base : BeliefBase) (pattern : Term) (θ : Substitution) :
    Option (Term × Substitution × BeliefBase) :=
  let walked := θ.walk pattern
  (splitFirst? occursCheck pattern θ (base.factsLike walked)).map fun (fact, extended, others) =>
    (fact, extended, base.withFactsLike walked others)

/-- The pattern of all facts with a literal's name and arity. -/
def anyLike (fact : Term) : Term :=
  match fact with
  | .compound functor (first :: rest) =>
      .compound functor ((List.range (first :: rest).length).map fun i => .var (.wildcard i))
  | other => other

/-- What an operation comes to for an agent: its outcome, the base behind it, and its reports. Each fact
that comes or goes is reported when the base has changed, so an operation that stumbles over a fact
without a text fails with its change made. -/
structure Revision (α : Type) where
  outcome : Except Fault α
  base : BeliefBase
  reports : List String

/-- A change that reports some facts, up to the first one without a text. -/
def announced {α : Type} (mark : String) (facts : List Term) (result : α) (base : BeliefBase) :
    Revision α where
  outcome := if facts.all Term.isWritable then .ok result else .error .unwritable
  base := base
  reports := (facts.takeWhile Term.isWritable).map fun fact => mark ++ fact.render

/-- Adds a fact; true if it is new. -/
def asserting (base : BeliefBase) (fact : Term) : Revision Bool :=
  match base.assert fact with
  | .error fault => ⟨.error fault, base, []⟩
  | .ok (false, same) => ⟨.ok false, same, []⟩
  | .ok (true, larger) => announced "+" [fact] true larger

/-- Takes out every instance of a pattern. -/
def retracting (occursCheck : Bool) (base : BeliefBase) (pattern : Term) : Revision (List Term) :=
  let (removed, remaining) := base.retract occursCheck pattern
  announced "-" removed removed remaining

/-- Takes out the first fact that a pattern matches under `θ`. The result is the bindings that make
them equal. -/
def removing (occursCheck : Bool) (base : BeliefBase) (pattern : Term) (θ : Substitution) :
    Revision (Option Substitution) :=
  match base.remove? occursCheck pattern θ with
  | none => ⟨.ok none, base, []⟩
  | some (fact, extended, remaining) => announced "-" [fact] (some extended) remaining

/-- Puts a fact in place of all facts with its name and arity. The result is those facts. -/
def replacing (occursCheck : Bool) (base : BeliefBase) (fact : Term) : Revision (List Term) :=
  match filing fact with
  | .error fault => ⟨.error fault, base, []⟩
  | .ok _ =>
      let cleared := base.retracting occursCheck (anyLike fact)
      match cleared.outcome with
      | .error _ => cleared
      | .ok removed =>
          let replaced := cleared.base.asserting fact
          ⟨replaced.outcome.map fun _ => removed, replaced.base,
            cleared.reports ++ replaced.reports⟩

/-- One more rule, behind the others of its group. -/
def addRule (base : BeliefBase) (rule : Rule) : BeliefBase :=
  match rule.head.indicator? with
  | some key => { base with ruleGroups := base.ruleGroups.push key rule }
  | none => base

/-- The base of a program's beliefs and rules. -/
def ofProgram (program : Program) : Except Fault BeliefBase := do
  let base ← program.beliefs.foldlM (fun base fact => do
    let revision := base.asserting fact
    let _ ← revision.outcome
    return revision.base) empty
  return program.rules.foldl addRule base

end BeliefBase

end AgentSpeak
