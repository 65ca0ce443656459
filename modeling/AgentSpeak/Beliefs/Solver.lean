import AgentSpeak.Beliefs.Search
import AgentSpeak.Comparison
import AgentSpeak.Limits

/-!
Answering formulas by backward chaining.

A literal is answered by the facts that unify with it and then by the rules whose head does, each
rule renamed apart and its body proved one level deeper. Conjunctions go from left to right,
disjunctions in order, and a negation holds once where its formula has no answer.
-/

namespace AgentSpeak

namespace Search

/-- The answers that facts give to a literal. -/
def matching (occursCheck : Bool) (literal : Term) (θ : Substitution) : List Term → Search
  | [] => .done
  | fact :: rest =>
      match θ.unify? occursCheck literal fact with
      | some extended => .answer extended fun _ => matching occursCheck literal θ rest
      | none => matching occursCheck literal θ rest

/-- The answers that rules give to a literal, where `prove` answers their bodies. -/
def applying (occursCheck : Bool) (prove : Formula → Substitution → Search) (literal : Term)
    (θ : Substitution) : List Rule → Search
  | [] => .done
  | rule :: rest =>
      .fresh fun n =>
        let renamed := rule.mark [toString n]
        match θ.unify? occursCheck literal renamed.head with
        | some extended =>
            (prove renamed.body extended).append fun _ =>
              applying occursCheck prove literal θ rest
        | none => applying occursCheck prove literal θ rest

/-- The answers to a literal, where `prove` answers the bodies of rules. -/
def asking (occursCheck : Bool) (prove : Formula → Substitution → Search) (literal : Term)
    (θ : Substitution) : Search :=
  match θ.walk literal with
  | .atom "true" => single θ
  | .atom "false" => .done
  | walked =>
      match walked.indicator? with
      | none => .failed (.notQueryable walked)
      | some key =>
          .facts key fun facts =>
            (matching occursCheck walked θ facts).append fun _ =>
              .rules key (applying occursCheck prove walked θ)

/-- The answer to a relation between two terms. -/
def relating (occursCheck : Bool) (relation : Relation) (left right : Term) (θ : Substitution) :
    Search :=
  ofResult <| match relation with
    | .unify => do return θ.unify? occursCheck (← θ.resolve left) (← θ.resolve right)
    | relation => do return if ← θ.compare relation left right then some θ else none

/-- The answers to a formula, where `ask` answers its literals. -/
def solvingWith (occursCheck : Bool) (ask : Term → Substitution → Search) :
    Formula → Substitution → Search
  | .literal term, θ => ask term θ
  | .negation formula, θ => (solvingWith occursCheck ask formula θ).refute θ
  | .conjunction left right, θ =>
      (solvingWith occursCheck ask left θ).bind (solvingWith occursCheck ask right)
  | .disjunction left right, θ =>
      (solvingWith occursCheck ask left θ).append fun _ => solvingWith occursCheck ask right θ
  | .comparison relation left right, θ => relating occursCheck relation left right θ

/-- The answers to a literal that may go `levels` levels deep, its own included. -/
def queryWithin (limits : Limits) : Nat → Term → Substitution → Search
  | 0, literal, θ => .failed (.tooDeep limits.maxDepth (θ.apply literal))
  | levels + 1, literal, θ =>
      asking limits.occursCheck (solvingWith limits.occursCheck (queryWithin limits levels))
        literal θ

def query (limits : Limits) (literal : Term) (θ : Substitution) : Search :=
  queryWithin limits (limits.maxDepth + 1).toNat literal θ

def solve (limits : Limits) (formula : Formula) (θ : Substitution) : Search :=
  solvingWith limits.occursCheck (query limits) formula θ

end Search

namespace BeliefBase

/-- The first answer of a search, if it has one. -/
def first (base : BeliefBase) (search : Search) :
    Except Fault (Option Substitution) × BeliefBase :=
  match base.next search with
  | (.ended, after) => (.ok none, after)
  | (.failed fault, after) => (.error fault, after)
  | (.found θ _, after) => (.ok (some θ), after)

/-- All answers of a search, unless it fails. -/
def answers (base : BeliefBase) (search : Search) :
    Except Fault (List Substitution) × BeliefBase :=
  match base.all search with
  | (found, none, after) => (.ok found, after)
  | (_, some fault, after) => (.error fault, after)

end BeliefBase

end AgentSpeak
