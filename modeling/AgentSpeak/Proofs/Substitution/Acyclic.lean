import Mathlib.Data.Finset.Card
import Mathlib.Logic.Relation
import AgentSpeak.Proofs.Term.Instance
import AgentSpeak.Substitution.Basic

namespace AgentSpeak.Substitution

/-- A variable refers to those in the term that it is bound to. -/
def Refers (θ : Substitution) (v w : Variable) : Prop :=
  ∃ term, θ.find? v = some term ∧ w ∈ term.vars

/-- No variable reaches itself by following bindings. -/
def Acyclic (θ : Substitution) : Prop :=
  ∀ v, ¬ Relation.TransGen θ.Refers v v

/-- A substitution that has all bindings of an earlier one. -/
def Extends (later earlier : Substitution) : Prop :=
  ∀ v term, earlier.find? v = some term → later.find? v = some term

variable {θ : Substitution} {v w : Variable} {term : Term}

theorem Extends.refl (θ : Substitution) : θ.Extends θ :=
  fun _ _ found => found

theorem Extends.trans {first second third : Substitution} (one : second.Extends first)
    (two : third.Extends second) : third.Extends first :=
  fun v term found => two v term (one v term found)

theorem extends_insert (free : θ.find? v = none) (term : Term) : (θ.insert v term).Extends θ := by
  intro w value found
  have other : w ≠ v := by
    rintro rfl
    simp [free] at found
  rw [find?_insert, if_neg other]
  exact found

theorem acyclic_empty : empty.Acyclic := by
  intro v path
  obtain ⟨w, ⟨term, found, _⟩, _⟩ := Relation.TransGen.head'_iff.mp path
  simp at found

theorem mem_of_find? (found : θ.find? v = some term) : (v, term) ∈ θ.bindings := by
  obtain ⟨before, after, split, _⟩ := List.lookup_eq_some_iff.mp found
  rw [split]
  exact List.mem_append_right _ List.mem_cons_self

theorem length_le_weight (θ : Substitution) : θ.bindings.length ≤ θ.weight := by
  rw [θ.weight_eq]
  induction θ.bindings with
  | nil => exact Nat.le_refl _
  | cons binding rest ih =>
    rw [bindingsWeight, List.length_cons]
    omega

section Rank

open Classical

/-- How many bound variables a variable reaches, itself included. -/
noncomputable def rank (θ : Substitution) (v : Variable) : Nat :=
  ((θ.bindings.map Prod.fst).toFinset.filter fun w => Relation.ReflTransGen θ.Refers v w).card

theorem rank_le_weight (θ : Substitution) (v : Variable) : θ.rank v ≤ θ.weight := by
  apply Nat.le_trans (Finset.card_filter_le _ _)
  apply Nat.le_trans (List.toFinset_card_le _)
  rw [List.length_map]
  exact θ.length_le_weight

private theorem mem_domain (found : θ.find? v = some term) :
    v ∈ (θ.bindings.map Prod.fst).toFinset :=
  List.mem_toFinset.mpr (List.mem_map.mpr ⟨(v, term), mem_of_find? found, rfl⟩)

theorem rank_pos (found : θ.find? v = some term) : 0 < θ.rank v :=
  Finset.card_pos.mpr ⟨v, Finset.mem_filter.mpr ⟨mem_domain found, .refl⟩⟩

/-- Along the bindings of an acyclic substitution the rank goes down. -/
theorem Acyclic.rank_lt (acyclic : θ.Acyclic) (refers : θ.Refers v w) : θ.rank w < θ.rank v := by
  apply Finset.card_lt_card
  refine ⟨fun u reached => ?_, fun contained => ?_⟩
  · obtain ⟨bound, path⟩ := Finset.mem_filter.mp reached
    exact Finset.mem_filter.mpr ⟨bound, .head refers path⟩
  · obtain ⟨term, found, member⟩ := refers
    have own := contained (Finset.mem_filter.mpr ⟨mem_domain found, .refl⟩)
    exact acyclic v (.head' ⟨term, found, member⟩ (Finset.mem_filter.mp own).2)

end Rank

theorem follow_unbound (free : θ.find? v = none) (steps : Nat) : θ.follow steps v = .var v := by
  cases steps with
  | zero => rfl
  | succ steps => simp only [follow, free]

theorem value_unbound (free : θ.find? v = none) (depth : Nat) : θ.value depth v = .var v := by
  cases depth with
  | zero => rfl
  | succ depth => simp only [value, free]

/-- Beyond the rank of a variable a higher bound changes nothing. -/
theorem Acyclic.follow_stable (acyclic : θ.Acyclic) {m n : Nat} (first : θ.rank v ≤ m)
    (second : θ.rank v ≤ n) : θ.follow m v = θ.follow n v := by
  induction m generalizing v n with
  | zero =>
    cases found : θ.find? v with
    | none => rw [follow_unbound found, follow_unbound found]
    | some term => exact absurd (rank_pos found) (by omega)
  | succ m ih =>
    cases found : θ.find? v with
    | none => rw [follow_unbound found, follow_unbound found]
    | some term =>
      cases n with
      | zero => exact absurd (rank_pos found) (by omega)
      | succ n =>
        cases term with
        | var w =>
          have lower := acyclic.rank_lt (w := w) ⟨.var w, found, by simp⟩
          simpa only [follow, found] using ih (v := w) (by omega) (by omega)
        | atom name => simp only [follow, found]
        | number value => simp only [follow, found]
        | string value => simp only [follow, found]
        | compound functor arguments => simp only [follow, found]

theorem Acyclic.value_stable (acyclic : θ.Acyclic) {m n : Nat} (first : θ.rank v ≤ m)
    (second : θ.rank v ≤ n) : θ.value m v = θ.value n v := by
  induction m generalizing v n with
  | zero =>
    cases found : θ.find? v with
    | none => rw [value_unbound found, value_unbound found]
    | some term => exact absurd (rank_pos found) (by omega)
  | succ m ih =>
    cases found : θ.find? v with
    | none => rw [value_unbound found, value_unbound found]
    | some term =>
      cases n with
      | zero => exact absurd (rank_pos found) (by omega)
      | succ n =>
        simp only [value, found]
        apply Term.bind_congr
        intro w member
        have lower := acyclic.rank_lt ⟨term, found, member⟩
        exact ih (by omega) (by omega)

@[simp] theorem walk_atom (θ : Substitution) (name : String) :
    θ.walk (.atom name) = .atom name := rfl

@[simp] theorem walk_number (θ : Substitution) (value : Number) :
    θ.walk (.number value) = .number value := rfl

@[simp] theorem walk_string (θ : Substitution) (value : String) :
    θ.walk (.string value) = .string value := rfl

@[simp] theorem walk_compound (θ : Substitution) (functor : String) (arguments : List Term) :
    θ.walk (.compound functor arguments) = .compound functor arguments := rfl

/-- A literal stands for itself. -/
theorem walk_of_filed (filed : term.indicator?.isSome = true) (θ : Substitution) :
    θ.walk term = term := by
  cases term with
  | var v => cases filed
  | _ => rfl

theorem walk_unbound (free : θ.find? v = none) : θ.walk (.var v) = .var v :=
  follow_unbound free _

/-- Walking from a bound variable is walking from the term that it is bound to. -/
theorem Acyclic.walk_bound (acyclic : θ.Acyclic) (found : θ.find? v = some term) :
    θ.walk (.var v) = θ.walk term := by
  have enough := rank_le_weight θ v
  have step : θ.walk (.var v) = θ.follow (θ.weight + 1) v :=
    acyclic.follow_stable enough (by omega)
  rw [step]
  cases term <;> simp only [follow, found, walk]

@[simp] theorem apply_atom (θ : Substitution) (name : String) :
    θ.apply (.atom name) = .atom name := Term.bind_atom _ _

@[simp] theorem apply_number (θ : Substitution) (value : Number) :
    θ.apply (.number value) = .number value := Term.bind_number _ _

@[simp] theorem apply_string (θ : Substitution) (value : String) :
    θ.apply (.string value) = .string value := Term.bind_string _ _

@[simp] theorem apply_compound (θ : Substitution) (functor : String) (arguments : List Term) :
    θ.apply (.compound functor arguments) = .compound functor (arguments.map θ.apply) :=
  Term.bind_compound _ _ _

theorem apply_unbound (free : θ.find? v = none) : θ.apply (.var v) = .var v := by
  rw [apply, Term.bind_var, value_unbound free]

/-- The full value of a bound variable is that of the term that it is bound to. -/
theorem Acyclic.apply_bound (acyclic : θ.Acyclic) (found : θ.find? v = some term) :
    θ.apply (.var v) = θ.apply term := by
  have enough := rank_le_weight θ v
  have step : θ.value θ.weight v = θ.value (θ.weight + 1) v :=
    acyclic.value_stable enough (by omega)
  rw [apply, Term.bind_var, step]
  simp only [value, found, apply]

theorem apply_eq_bind (θ : Substitution) (term : Term) :
    θ.apply term = term.bind fun v => θ.apply (.var v) := by
  rw [apply]
  exact Term.bind_congr fun v _ => (Term.bind_var _ v).symm

/-- Terms under an acyclic substitution: what holds of unbound variables and constants, and passes
along bindings and to compound terms, holds of every term. -/
@[elab_as_elim]
theorem Acyclic.resolving {motive : Term → Prop} (acyclic : θ.Acyclic) (term : Term)
    (atom : ∀ name, motive (.atom name)) (number : ∀ value, motive (.number value))
    (string : ∀ value, motive (.string value))
    (unbound : ∀ v, θ.find? v = none → motive (.var v))
    (bound : ∀ v value, θ.find? v = some value → motive value → motive (.var v))
    (compound : ∀ functor arguments, (∀ argument ∈ arguments, motive argument) →
      motive (.compound functor arguments)) : motive term := by
  -- The outer induction is on the rank, since the value of a variable is no part of it.
  have each (rank : Nat) : ∀ v, θ.rank v = rank → motive (.var v) := by
    induction rank using Nat.strong_induction_on with
    | _ rank ih =>
      intro v same
      cases found : θ.find? v with
      | none => exact unbound v found
      | some value =>
        apply bound v value found
        have lower : ∀ w ∈ value.vars, motive (.var w) := fun w member =>
          ih (θ.rank w) (same ▸ acyclic.rank_lt ⟨value, found, member⟩) w rfl
        clear found same
        induction value using Term.structural with
        | atom name => exact atom name
        | number value => exact number value
        | string value => exact string value
        | var w => exact lower w (by simp)
        | compound functor arguments parts =>
          apply compound
          intro argument member
          apply parts argument member
          intro w occurs
          exact lower w
            (by rw [Term.vars_compound]; exact List.mem_flatMap.mpr ⟨argument, member, occurs⟩)
  induction term using Term.structural with
  | atom name => exact atom name
  | number value => exact number value
  | string value => exact string value
  | var v => exact each _ v rfl
  | compound functor arguments parts => exact compound functor arguments parts

/-- Only unbound variables are left in a full value. -/
theorem Acyclic.unbound_of_mem_apply (acyclic : θ.Acyclic) (member : v ∈ (θ.apply term).vars) :
    θ.find? v = none := by
  induction term using acyclic.resolving with
  | atom name => simp at member
  | number value => simp at member
  | string value => simp at member
  | unbound w free =>
    rw [apply_unbound free, Term.vars_var, List.mem_singleton] at member
    exact member ▸ free
  | bound w value found ih =>
    rw [acyclic.apply_bound found] at member
    exact ih member
  | compound functor arguments parts =>
    rw [apply_compound, Term.vars_compound, List.mem_flatMap] at member
    obtain ⟨resolved, present, occurs⟩ := member
    obtain ⟨argument, inside, same⟩ := List.mem_map.mp present
    exact parts argument inside (same ▸ occurs)

/-- Later bindings see through the earlier ones that they extend. -/
theorem Acyclic.apply_earlier {later : Substitution} (acyclic : later.Acyclic)
    (wider : later.Extends θ) (own : θ.Acyclic) (term : Term) :
    later.apply (θ.apply term) = later.apply term := by
  induction term using own.resolving with
  | atom name => rw [apply_atom]
  | number value => rw [apply_number]
  | string value => rw [apply_string]
  | unbound v free => rw [apply_unbound free]
  | bound v value found ih =>
    rw [own.apply_bound found, ih, acyclic.apply_bound (wider v value found)]
  | compound functor arguments parts =>
    rw [apply_compound, apply_compound, apply_compound, List.map_map]
    exact congrArg _ (List.map_congr_left parts)

end AgentSpeak.Substitution
