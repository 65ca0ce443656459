import AgentSpeak.Proofs.Beliefs.Answers
import AgentSpeak.Proofs.Beliefs.LeastModel
import AgentSpeak.Proofs.Term.Naming
import AgentSpeak.Proofs.Unification.MostGeneral

/-!
Soundness of proofs. Every map of variables to ground terms that agrees with an answer agrees with
the bindings that the search started from and makes the formula true in the least model. It does so
for every renaming of a rule, so nothing is asked of the names of variables.
-/

namespace AgentSpeak

open Substitution

namespace BeliefBase

/-- A base of facts and rules without floating-point numbers. The bodies of rules are definite,
their variables are named as they are read, and nothing concludes `false`. -/
structure IsDefinite (base : BeliefBase) : Prop where
  facts : ∀ fact ∈ base.facts, fact.isExact = true ∧ fact ≠ Term.falsity
  heads : ∀ rule ∈ base.rules, rule.head.isExact = true ∧ rule.head ≠ Term.falsity
  bodies : ∀ rule ∈ base.rules, rule.body.isDefinite = true
  written : ∀ rule ∈ base.rules, ∀ v ∈ rule.head.vars ++ rule.body.vars, v.IsWritten

end BeliefBase

namespace Substitution

/-- Acyclic, and without floating-point numbers in the bound terms. -/
structure IsExact (θ : Substitution) : Prop where
  acyclic : θ.Acyclic
  values : θ.Valued fun term => term.isExact = true

theorem isExact_empty : empty.IsExact :=
  ⟨acyclic_empty, valued_empty⟩

variable {θ θ' : Substitution} {s t : Term} {σ : Variable → Term}

theorem IsExact.unify? (exact : θ.IsExact) (left : s.isExact = true) (right : t.isExact = true)
    (found : θ.unify? true s t = some θ') : θ'.IsExact :=
  ⟨(exact.acyclic.unifies s t).acyclic exact.acyclic θ' found,
    (unify?_origin Term.hereditary_isExact left right exact.values found).1⟩

/-- Without floating-point numbers, the maps that agree with a unifier are those that agree with the
bindings before and make the two terms the same. -/
theorem IsExact.unify?_iff (exact : θ.IsExact) (left : s.isExact = true)
    (right : t.isExact = true) (σ : Variable → Term) :
    (∃ θ', θ.unify? true s t = some θ' ∧ Solves σ θ') ↔ Solves σ θ ∧ s.bind σ = t.bind σ := by
  have maps := (exact.acyclic.unifies s t).solves_iff σ exact.acyclic
  rw [Term.canonical_of_isExact left, Term.canonical_of_isExact right] at maps
  exact maps.symm

theorem IsExact.apply (exact : θ.IsExact) {term : Term} (own : term.isExact = true) :
    (θ.apply term).isExact = true := by
  induction term using exact.acyclic.resolving with
  | atom name => rfl
  | number value => simpa using own
  | string value => rfl
  | unbound v free => rw [apply_unbound free, own]
  | bound v value found ih =>
    rw [exact.acyclic.apply_bound found]
    exact ih (exact.values v value found)
  | compound functor arguments parts =>
    rw [apply_compound, Term.isExact, Term.isExactAll_iff]
    intro applied member
    obtain ⟨argument, inside, same⟩ := List.mem_map.mp member
    have ownInside := Term.hereditary_isExact functor arguments own argument inside
    exact same ▸ parts argument inside ownInside

/-- A map put for the variables that remain agrees with the bindings. -/
theorem IsExact.solves_apply (exact : θ.IsExact) (σ : Variable → Term) :
    Solves (fun v => (θ.apply (.var v)).bind σ) θ := by
  intro v term found
  show (θ.apply (.var v)).bind σ = _
  rw [exact.acyclic.apply_bound found, apply_eq_bind, Term.bind_bind,
    Term.canonical_of_isExact (exact.values v term found)]

/-- A map that agrees with the bindings is one of its instances. -/
theorem Solves.eq_apply (solves : Solves σ θ) (exact : θ.IsExact) (v : Variable) :
    σ v = (θ.apply (.var v)).bind σ := by
  have same := solves.apply exact.acyclic (.var v)
  rw [Term.canonical_of_isExact (exact.apply rfl)] at same
  exact same.symm

end Substitution

namespace Search

variable {base : BeliefBase} {limits : Limits} {formula : Formula} {literal : Term}
  {θ θ' : Substitution}

/-- An answer to a formula from some bindings: what agrees with it agrees with the bindings and
makes the formula true. -/
structure Proves (base : BeliefBase) (formula : Formula) (θ θ' : Substitution) : Prop where
  exact : θ'.IsExact
  keeps : ∀ σ, BeliefBase.Grounds σ → Solves σ θ' → Solves σ θ
  true_ : ∀ σ, BeliefBase.Grounds σ → Solves σ θ' → (formula.bind σ).HoldsIn base.LeastModel

/-- All answers to a formula are proofs of it. -/
def Sound (base : BeliefBase) (formula : Formula) (θ : Substitution) (search : Search) : Prop :=
  Within (· ∈ base.facts) (· ∈ base.rules) (Proves base formula θ) search

theorem solvingWith_sound {ask : Term → Substitution → Search}
    (asks : ∀ literal θ, literal.indicator?.isSome = true → literal.isExact = true → θ.IsExact →
      Sound base (.literal literal) θ (ask literal θ))
    (definite : formula.isDefinite = true) (exact : θ.IsExact) :
    Sound base formula θ (solvingWith true ask formula θ) := by
  induction formula generalizing θ with
  | literal term =>
    simp only [Formula.isDefinite, Bool.and_eq_true] at definite
    exact asks term θ definite.1 definite.2 exact
  | conjunction left right leftIh rightIh =>
    simp only [Formula.isDefinite, Bool.and_eq_true] at definite
    refine (leftIh definite.1 exact).bind fun middle first => ?_
    refine (rightIh definite.2 first.exact).mono _ fun θ' second => ?_
    refine ⟨second.exact, ?_, ?_⟩
    · intro σ grounds solves
      exact first.keeps σ grounds (second.keeps σ grounds solves)
    · intro σ grounds solves
      exact .conjunction (first.true_ σ grounds (second.keeps σ grounds solves))
        (second.true_ σ grounds solves)
  | disjunction left right leftIh rightIh =>
    simp only [Formula.isDefinite, Bool.and_eq_true] at definite
    refine ((leftIh definite.1 exact).mono _ fun θ' one => ?_).append
      ((rightIh definite.2 exact).mono _ fun θ' one => ?_)
    · exact ⟨one.exact, one.keeps, fun σ grounds solves => .left (one.true_ σ grounds solves)⟩
    · exact ⟨one.exact, one.keeps, fun σ grounds solves => .right (one.true_ σ grounds solves)⟩
  | negation formula ih => cases definite
  | comparison relation left right => cases definite

theorem queryWithin_sound (ordered : base.Ordered) (known : base.IsDefinite)
    (checked : limits.occursCheck = true) (levels : Nat)
    (filed : literal.indicator?.isSome = true) (own : literal.isExact = true)
    (exact : θ.IsExact) :
    Sound base (.literal literal) θ (queryWithin limits levels literal θ) := by
  induction levels generalizing literal θ with
  | zero => trivial
  | succ levels ih =>
    have model := base.leastModel_isModel
    rw [queryWithin, checked]
    refine within_asking ?_ ?_ ?_
    · rw [Substitution.walk_of_filed filed]
      rintro rfl
      exact ⟨exact, fun σ _ solves => solves, fun σ _ _ => .literal model.truth⟩
    · rw [Substitution.walk_of_filed filed]
      intro fact member θ' found
      have factExact := (known.facts fact member).1
      have maps σ (solves : Solves σ θ') :=
        (exact.unify?_iff own factExact σ).mp ⟨θ', found, solves⟩
      refine ⟨exact.unify? own factExact found, fun σ _ solves => (maps σ solves).1,
        fun σ _ solves => .literal ?_⟩
      rw [(maps σ solves).2, Term.bind_of_isGround (ordered.ground fact member)]
      exact model.facts fact member
    · rw [Substitution.walk_of_filed filed]
      intro rule member n extended found
      have renamed := Term.isExact_bind (f := fun v => .var (v.mark [toString n]))
        (known.heads rule member).1 fun v _ => rfl
      have maps σ (solves : Solves σ extended) :=
        (exact.unify?_iff own renamed σ).mp ⟨extended, found, solves⟩
      have body := Formula.isDefinite_mark [toString n] (known.bodies rule member)
      refine (solvingWith_sound (fun literal θ => ih) body
        (exact.unify? own renamed found)).mono _ fun θ' proof => ?_
      refine ⟨proof.exact, ?_, ?_⟩
      · intro σ grounds solves
        exact (maps σ (proof.keeps σ grounds solves)).1
      · intro σ grounds solves
        have holds := proof.true_ σ grounds solves
        rw [Formula.mark_eq_bind, Formula.bind_bind] at holds
        refine .literal ?_
        rw [(maps σ (proof.keeps σ grounds solves)).2, Term.bind_bind]
        exact model.rules rule member _ (fun v => grounds (v.mark [toString n])) holds

/-- Every answer to a definite formula is a proof of it. -/
theorem solve_sound (ordered : base.Ordered) (known : base.IsDefinite)
    (checked : limits.occursCheck = true) (definite : formula.isDefinite = true)
    (exact : θ.IsExact) : Sound base formula θ (solve limits formula θ) := by
  rw [solve, checked]
  exact solvingWith_sound (fun literal θ => queryWithin_sound ordered known checked _) definite
    exact

end Search

end AgentSpeak
