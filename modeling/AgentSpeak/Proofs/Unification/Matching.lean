import AgentSpeak.Proofs.Substitution.Acyclic
import AgentSpeak.Proofs.Term.Equality
import AgentSpeak.Proofs.Unification.Origin

/-!
Unification of a term with an instance of it. If the variables of the term are unbound and those of
the instance are new, unification succeeds with and without the occurs check and binds the variables
of the term to their instances, and nothing else.
-/

namespace AgentSpeak

namespace Term

/-- A term that equals its instance has none of the variables that the instance replaces. -/
theorem bind_eq_var_of_beq {ρ : Variable → Term} {term : Term}
    (equal : (term == term.bind ρ) = true) : ∀ v ∈ term.vars, ρ v = .var v := by
  intro v member
  rw [beq_iff_canonical, canonical_bind] at equal
  have fixed : term.canonical.bind Term.var = term.canonical := bind_self fun _ _ => rfl
  have same := eq_of_bind_eq (fixed.trans equal) v (by rwa [vars_canonical])
  exact beq_var_iff.mp (beq_iff_canonical.mpr (by rw [← same, canonical_var]))

end Term

namespace Substitution

variable {θ later : Substitution} {ρ : Variable → Term} {term part : Term} {v : Variable}
  {check : Bool}

/-- The variables of a term have no value, and those of their instances are new: they are neither
bound nor part of the term. -/
structure Matchable (θ : Substitution) (term : Term) (ρ : Variable → Term) : Prop where
  unbound : ∀ v ∈ term.vars, θ.find? v = none
  new : ∀ v ∈ term.vars, (ρ v).Over fun w => θ.find? w = none ∧ w ∉ term.vars

/-- Bindings that add to `θ` only variables of a term, bound to their instances. -/
structure Matches (θ : Substitution) (term : Term) (ρ : Variable → Term) (later : Substitution) :
    Prop where
  kept : later.Extends θ
  added : ∀ v value, later.find? v = some value →
    θ.find? v = some value ∨ v ∈ term.vars ∧ value = ρ v

theorem Matches.refl (θ : Substitution) (term : Term) (ρ : Variable → Term) :
    Matches θ term ρ θ :=
  ⟨.refl θ, fun _ _ found => .inl found⟩

/-- What is new stays without a value. -/
theorem Matches.unbound (matched : Matches θ term ρ later) (matchable : Matchable θ term ρ)
    (member : v ∈ term.vars) : (ρ v).Over fun w => later.find? w = none := by
  intro w occurs
  obtain ⟨free, apart⟩ := matchable.new v member w occurs
  cases found : later.find? w with
  | none => rfl
  | some value =>
    rcases matched.added w value found with old | ⟨inside, -⟩
    · rw [free] at old
      cases old
    · exact absurd inside apart

theorem apply_of_unbound (unbound : part.Over fun w => later.find? w = none) :
    later.apply part = part := by
  rw [apply_eq_bind]
  exact Term.bind_self fun w occurs => apply_unbound (unbound w occurs)

theorem walk_of_unbound (unbound : part.Over fun w => later.find? w = none) :
    later.walk part = part := by
  cases part with
  | var w => exact walk_unbound (Term.over_var.mp unbound)
  | atom name => rfl
  | number value => rfl
  | string value => rfl
  | compound functor arguments => rfl

theorem weight_pos (found : later.find? v = some part) : ∃ n, later.weight = n + 1 := by
  have bound := length_le_weight later
  have present := List.length_pos_of_mem (mem_of_find? found)
  exact Nat.exists_eq_succ_of_ne_zero (by omega)

/-- A variable bound to a term without bound variables stands for it. -/
theorem walk_of_found (found : later.find? v = some part)
    (unbound : part.Over fun w => later.find? w = none) : later.walk (.var v) = part := by
  obtain ⟨n, weight⟩ := weight_pos found
  show later.follow later.weight v = part
  rw [weight, follow, found]
  cases part with
  | var w => exact follow_unbound (Term.over_var.mp unbound) n
  | atom name => rfl
  | number value => rfl
  | string value => rfl
  | compound functor arguments => rfl

theorem apply_of_found (found : later.find? v = some part)
    (unbound : part.Over fun w => later.find? w = none) : later.apply (.var v) = part := by
  obtain ⟨n, weight⟩ := weight_pos found
  show (Term.var v).bind (later.value later.weight) = part
  rw [Term.bind_var, weight, value, found]
  exact Term.bind_self fun w occurs => value_unbound (unbound w occurs) n

/-- No variable is its own instance, which is new. -/
theorem Matchable.ne_var (matchable : Matchable θ term ρ) (member : v ∈ term.vars) :
    ρ v ≠ .var v := by
  intro same
  have own := matchable.new v member v
  rw [same, Term.vars_var] at own
  exact (own List.mem_cons_self).2 member

/-- An outcome that keeps what is matched and gives some variables their instances. -/
def Gives (θ : Substitution) (term : Term) (ρ : Variable → Term) (later : Substitution)
    (given : List Variable) (outcome : Option Substitution) : Prop :=
  ∃ next, outcome = some next ∧ Matches θ term ρ next ∧ next.Extends later ∧
    ∀ v ∈ given, next.find? v = some (ρ v)

/-- A variable is bound to its instance if it is not bound to it yet. -/
private theorem gives_variable (matchable : Matchable θ term ρ)
    (matched : Matches θ term ρ later) (member : v ∈ term.vars) (depth : Nat) :
    Gives θ term ρ later [v] (unifyWithin check (depth + 1) (.var v) (ρ v) later) := by
  have clear := matched.unbound matchable member
  rw [unifyWithin, walk_of_unbound clear]
  cases found : later.find? v with
  | some value =>
    have same : value = ρ v := by
      rcases matched.added v value found with old | ⟨-, same⟩
      · rw [matchable.unbound v member] at old
        cases old
      · exact same
    rw [walk_of_found (same ▸ found) clear, BEq.rfl]
    exact ⟨later, rfl, matched, .refl later, List.forall_mem_singleton.mpr (same ▸ found)⟩
  | none =>
    have apart : (Term.var v == ρ v) = false := by
      rw [Bool.eq_false_iff]
      intro equal
      exact matchable.ne_var member (Term.beq_var_iff.mp (BEq.symm equal))
    have clearCheck : later.occurs v (ρ v) = false := by
      rw [occurs, apply_of_unbound clear, List.contains_eq_mem, decide_eq_false_iff_not]
      exact fun inside => (matchable.new v member v inside).2 member
    rw [walk_unbound found, apart]
    refine ⟨later.insert v (ρ v), ?_, ⟨?_, ?_⟩, extends_insert found _, ?_⟩
    · simp [bindVariable?, clearCheck]
    · exact matched.kept.trans (extends_insert found _)
    · intro w value binding
      rw [find?_insert] at binding
      split at binding
      next same =>
        cases binding
        exact .inr ⟨same ▸ member, same ▸ rfl⟩
      next => exact matched.added w value binding
    · rw [List.forall_mem_singleton, find?_insert, if_pos rfl]

/-- The pairs of a term's parts and their instances are matched one after the other. -/
private theorem gives_pairs {step : Term → Term → Substitution → Option Substitution}
    {parts : List Term}
    (each : ∀ part ∈ parts, ∀ later, Matches θ term ρ later →
      Gives θ term ρ later part.vars (step part (part.bind ρ) later))
    (matched : Matches θ term ρ later) :
    Gives θ term ρ later (parts.flatMap Term.vars)
      (unifyPairs step parts (parts.map (Term.bind ρ)) later) := by
  induction parts generalizing later with
  | nil => exact ⟨later, rfl, matched, .refl later, by simp⟩
  | cons part rest ih =>
    obtain ⟨middle, first, matchedFirst, grownFirst, boundFirst⟩ :=
      each part List.mem_cons_self later matched
    obtain ⟨next, others, matchedRest, grownRest, boundRest⟩ :=
      ih (fun other member => each other (List.mem_cons_of_mem _ member)) matchedFirst
    refine ⟨next, ?_, matchedRest, grownFirst.trans grownRest, ?_⟩
    · rw [List.map_cons, unifyPairs, first, Option.bind_some, others]
    · intro v member
      rcases List.mem_append.mp (List.flatMap_cons ▸ member) with here | later
      · exact grownRest v (ρ v) (boundFirst v here)
      · exact boundRest v later

private theorem gives_part (matchable : Matchable θ term ρ) {depth : Nat}
    (inside : ∀ v ∈ part.vars, v ∈ term.vars) (matched : Matches θ term ρ later)
    (enough : part.size ≤ depth + 1) :
    Gives θ term ρ later part.vars
      (unifyWithin check (depth + 1) part (part.bind ρ) later) := by
  induction part using Term.structural generalizing depth later with
  | atom name | number value | string value =>
    refine ⟨later, ?_, matched, .refl later, by simp [Term.vars]⟩
    simp [unifyWithin]
  | var v =>
    rw [Term.bind_var, Term.vars_var]
    exact gives_variable matchable matched (inside v (by simp)) depth
  | compound functor arguments ih =>
    rw [unifyWithin, Term.bind_compound, walk_compound, walk_compound]
    split
    next equal =>
      rw [← Term.bind_compound] at equal
      refine ⟨later, rfl, matched, .refl later, fun v member => ?_⟩
      have own := Term.bind_eq_var_of_beq equal v member
      exact absurd own (matchable.ne_var (inside v member))
    next differ =>
      have arity : arguments.length = (arguments.map (Term.bind ρ)).length := by
        rw [List.length_map]
      simp only [arity, and_self, if_true]
      rw [Term.vars_compound] at inside ⊢
      refine gives_pairs (fun argument member middle matchedMiddle => ?_) matched
      have smaller := Term.size_lt_compound functor member
      have positive := argument.size_pos
      obtain ⟨depth, rfl⟩ := Nat.exists_eq_succ_of_ne_zero (show depth ≠ 0 by omega)
      exact ih argument member
        (fun v occurs => inside v (List.mem_flatMap.mpr ⟨argument, member, occurs⟩))
        matchedMiddle (by omega)

/-- A term unifies with an instance in new variables. The unifier adds the instances of the term's
variables to the bindings, and under it the term is the instance. -/
theorem Matchable.unify? (matchable : Matchable θ term ρ) (check : Bool) :
    ∃ later, θ.unify? check term (term.bind ρ) = some later ∧ Matches θ term ρ later ∧
      later.apply term = term.bind ρ := by
  have enough : term.size ≤ (term.size + (term.bind ρ).size + θ.weight) *
      (term.size + (term.bind ρ).size + θ.weight) + 1 := by
    have square := Nat.le_mul_self (term.size + (term.bind ρ).size + θ.weight)
    omega
  obtain ⟨later, found, matched, -, bound⟩ :=
    gives_part matchable (fun v member => member) (.refl θ term ρ) enough
  refine ⟨later, found, matched, ?_⟩
  rw [apply_eq_bind]
  exact Term.bind_congr fun v member =>
    apply_of_found (bound v member) (matched.unbound matchable member)

end Substitution

end AgentSpeak
