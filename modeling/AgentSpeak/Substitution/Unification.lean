import AgentSpeak.Substitution.Basic

/-!
Unification: the most general way to bind variables so that two terms become equal.

The recursion follows one path through a pair of terms and the bindings. A path that visits each
pair of subterms at most once ends within the square of their total size, which is the bound that
`unify?` sets.
-/

namespace AgentSpeak.Substitution

/-- One more binding, refused by the occurs check if the variable would contain itself. -/
def bindVariable? (occursCheck : Bool) (v : Variable) (term : Term) (θ : Substitution) :
    Option Substitution :=
  if occursCheck && θ.occurs v term then none else some (θ.insert v term)

/-- Terms made equal pair by pair, each step starting from the bindings of the one before. -/
def unifyPairs (step : Term → Term → Substitution → Option Substitution) :
    List Term → List Term → Substitution → Option Substitution
  | x :: xs, y :: ys, θ => (step x y θ).bind (unifyPairs step xs ys)
  | _, _, θ => some θ

/-- Unification along paths of at most `depth` pairs. -/
def unifyWithin (occursCheck : Bool) : Nat → Term → Term → Substitution → Option Substitution
  | 0, _, _, _ => none
  | depth + 1, s, t, θ =>
      let s := θ.walk s
      let t := θ.walk t
      if s == t then some θ
      else match s, t with
        | .var v, t => bindVariable? occursCheck v t θ
        | s, .var v => bindVariable? occursCheck v s θ
        | .compound f xs, .compound g ys =>
            if f = g ∧ xs.length = ys.length then
              unifyPairs (unifyWithin occursCheck depth) xs ys θ
            else none
        | _, _ => none

/-- The most general extension of `θ` under which two terms are equal. -/
def unify? (occursCheck : Bool) (s t : Term) (θ : Substitution) : Option Substitution :=
  let total := s.size + t.size + θ.weight
  unifyWithin occursCheck (total * total + 1) s t θ

end AgentSpeak.Substitution
