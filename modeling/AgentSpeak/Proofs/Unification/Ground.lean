import AgentSpeak.Beliefs.Basic
import AgentSpeak.Proofs.Term.Naming
import AgentSpeak.Proofs.Unification.MostGeneral
import AgentSpeak.Proofs.Unification.Matching

namespace AgentSpeak

namespace Substitution

variable {θ θ' : Substitution} {s t fact pattern : Term} {v : Variable} {check : Bool}

theorem apply_of_isGround (ground : t.isGround = true) (θ : Substitution) : θ.apply t = t :=
  Term.bind_of_isGround ground _

theorem walk_of_isGround (ground : t.isGround = true) (θ : Substitution) : θ.walk t = t := by
  cases t with
  | var v => cases ground
  | atom name => rfl
  | number value => rfl
  | string value => rfl
  | compound functor arguments => rfl

theorem bindVariable?_of_isGround (ground : t.isGround = true) (v : Variable)
    (θ : Substitution) (check : Bool) : bindVariable? check v t θ = some (θ.insert v t) := by
  have clear : θ.occurs v t = false := by
    rw [occurs, apply_of_isGround ground, Term.isGround_iff.mp ground]
    rfl
  simp [bindVariable?, clear]

theorem unifyPairs_congr {one other : Term → Term → Substitution → Option Substitution}
    {xs ys : List Term} (same : ∀ y ∈ ys, ∀ x θ, one x y θ = other x y θ) (θ : Substitution) :
    unifyPairs one xs ys θ = unifyPairs other xs ys θ := by
  induction xs generalizing ys θ with
  | nil => rfl
  | cons x xs ih =>
    cases ys with
    | nil => rfl
    | cons y ys =>
      rw [unifyPairs, unifyPairs, same y List.mem_cons_self]
      exact congrArg _ (funext fun middle =>
        ih (fun other member => same other (List.mem_cons_of_mem _ member)) middle)

private theorem unifyWithin_of_isGround (ground : t.isGround = true) (depth : Nat) (s : Term)
    (θ : Substitution) (check : Bool) :
    unifyWithin check depth s t θ = unifyWithin true depth s t θ := by
  induction depth generalizing s t θ with
  | zero => rfl
  | succ depth ih =>
    rw [unifyWithin, unifyWithin, walk_of_isGround ground]
    split
    next => rfl
    next =>
      split
      next => rw [bindVariable?_of_isGround ground, bindVariable?_of_isGround ground]
      next => cases ground
      next functor parts =>
        rw [Term.isGround, Term.isGroundAll_iff] at ground
        rw [unifyPairs_congr fun y member x θ => ih (ground y member) x θ]
      next => rfl

/-- The occurs check makes no difference to unification with a ground term. -/
theorem unify?_of_isGround (ground : t.isGround = true) (s : Term) (θ : Substitution)
    (check : Bool) : θ.unify? check s t = θ.unify? true s t :=
  unifyWithin_of_isGround ground _ s θ check

/-- Under a unifier two terms are equal. -/
theorem Acyclic.apply_beq (acyclic : θ.Acyclic) (unified : θ.unify? true s t = some θ') :
    (θ'.apply s == θ'.apply t) = true := by
  have run := acyclic.unifies s t
  have own := satisfies_iff_solves.mp (run.acyclic acyclic θ' unified).satisfies
  have equal := ((run.solves_iff _ acyclic).mpr ⟨θ', unified, own⟩).2
  rwa [Term.beq_iff_canonical, apply_eq_bind, apply_eq_bind θ' t, Term.canonical_bind,
    Term.canonical_bind]

/-- A pattern matched with a fact is an instance of the fact's equals. -/
theorem Acyclic.apply_beq_of_isGround (acyclic : θ.Acyclic) (ground : fact.isGround = true)
    (unified : θ.unify? check pattern fact = some θ') : (θ'.apply pattern == fact) = true := by
  rw [unify?_of_isGround ground] at unified
  have equal := acyclic.apply_beq unified
  rwa [apply_of_isGround ground] at equal

/-- Binding to a ground term makes no cycle, checked or not. -/
theorem Acyclic.unify?_of_isGround (acyclic : θ.Acyclic) (ground : t.isGround = true)
    (found : θ.unify? check s t = some θ') : θ'.Acyclic := by
  rw [Substitution.unify?_of_isGround ground] at found
  exact acyclic.of_unify? found

end Substitution

namespace Variable

theorem wildcard_injective : Function.Injective wildcard := by
  intro m n same
  simp only [wildcard, Variable.mk.injEq, true_and, List.cons.injEq, and_true] at same
  exact toString_injective same

end Variable

namespace BeliefBase

open Substitution

variable {fact : Term}

/-- There is a map that takes distinct variables to any terms. -/
private theorem exists_map {vs : List Variable} {terms : List Term} (distinct : vs.Nodup)
    (arity : vs.length = terms.length) : ∃ ρ : Variable → Term, vs.map ρ = terms := by
  induction vs generalizing terms with
  | nil => exact ⟨Term.var, (List.length_eq_zero_iff.mp arity.symm).symm⟩
  | cons v vs ih =>
    cases terms with
    | nil => cases arity
    | cons term terms =>
      obtain ⟨fresh, others⟩ := List.nodup_cons.mp distinct
      obtain ⟨ρ, same⟩ := ih others (Nat.succ.inj arity)
      refine ⟨Function.update ρ v term, ?_⟩
      rw [List.map_cons, Function.update_self, ← same]
      refine congrArg _ (List.map_congr_left fun w member => ?_)
      have apart : w ≠ v := fun equal => fresh (equal.symm ▸ member)
      exact Function.update_of_ne apart _ _

/-- A ground compound term is an instance of the pattern with a variable for each argument. -/
private theorem isInstance_wildcards {functor : String} {arguments : List Term} (check : Bool)
    (ground : (Term.compound functor arguments).isGround = true) :
    isInstance check (.compound functor ((List.range arguments.length).map fun i =>
      .var (.wildcard i))) (.compound functor arguments) = true := by
  have distinct : ((List.range arguments.length).map Variable.wildcard).Nodup :=
    List.nodup_range.map Variable.wildcard_injective
  have arity : ((List.range arguments.length).map Variable.wildcard).length = arguments.length := by
    simp
  obtain ⟨ρ, same⟩ := exists_map distinct arity
  have matchable : Matchable .empty (.compound functor ((List.range arguments.length).map fun i =>
      .var (.wildcard i))) ρ := by
    refine ⟨fun v member => rfl, fun v member => Term.over_of_isGround ?_⟩
    rw [Term.isGround, Term.isGroundAll_iff] at ground
    rw [Term.vars_compound, List.mem_flatMap] at member
    obtain ⟨part, present, occurs⟩ := member
    obtain ⟨i, inside, rfl⟩ := List.mem_map.mp present
    rw [Term.vars_var, List.mem_singleton] at occurs
    refine ground _ (same ▸ List.mem_map.mpr ⟨.wildcard i, List.mem_map.mpr ⟨i, inside, rfl⟩, ?_⟩)
    rw [occurs]
  obtain ⟨later, found, -⟩ := matchable.unify? check
  have image : (Term.compound functor ((List.range arguments.length).map fun i =>
      .var (.wildcard i))).bind ρ = .compound functor arguments := by
    rw [Term.bind_compound, ← same, List.map_map, List.map_map]
    simp [Function.comp_def]
  rw [isInstance, ← image, found, Option.isSome_some]

/-- Equals of a ground fact are instances of the pattern of all facts like it. -/
theorem isInstance_anyLike (check : Bool) {other : Term} (ground : other.isGround = true)
    (equal : (other == fact) = true) : isInstance check (anyLike fact) other = true := by
  have same := Term.beq_iff_canonical.mp equal
  unfold anyLike
  split
  next functor first rest =>
    cases other with
    | compound own arguments =>
      rw [Term.canonical_compound, Term.canonical_compound, Term.compound.injEq] at same
      obtain ⟨rfl, parts⟩ := same
      have arity : (first :: rest).length = arguments.length := by
        simpa using (congrArg List.length parts).symm
      rw [arity]
      exact isInstance_wildcards check ground
    | atom name | number value | string value | var v => simp [Term.canonical] at same
  next =>
    have free : fact.isGround = true := by
      rw [Term.isGround_iff, ← Term.vars_canonical, ← same, Term.vars_canonical]
      exact Term.isGround_iff.mp ground
    rw [isInstance, Substitution.unify?, unifyWithin, walk_of_isGround ground,
      walk_of_isGround free, BEq.symm equal]
    rfl

end BeliefBase

end AgentSpeak
