import AgentSpeak.Proofs.Term.Renaming
import AgentSpeak.Substitution.Unification

namespace AgentSpeak.Substitution

variable {π : Variable → Variable} (one : Function.Injective π)

theorem bindingsWeight_rename (π : Variable → Variable) (bindings : List (Variable × Term)) :
    bindingsWeight (bindings.map fun binding => (π binding.1, binding.2.rename π)) =
      bindingsWeight bindings := by
  induction bindings with
  | nil => rfl
  | cons binding rest ih => rw [List.map_cons, bindingsWeight, bindingsWeight, ih, Term.size_rename]

/-- Bindings with other names for the variables. -/
def rename (π : Variable → Variable) (θ : Substitution) : Substitution where
  bindings := θ.bindings.map fun binding => (π binding.1, binding.2.rename π)
  weight := θ.weight
  weight_eq := by rw [bindingsWeight_rename, θ.weight_eq]

@[simp] theorem rename_empty (π : Variable → Variable) : empty.rename π = empty := rfl

theorem rename_insert (π : Variable → Variable) (θ : Substitution) (v : Variable) (term : Term) :
    (θ.insert v term).rename π = (θ.rename π).insert (π v) (term.rename π) := by
  simp [rename, insert]

include one

theorem find?_rename (θ : Substitution) (v : Variable) :
    (θ.rename π).find? (π v) = (θ.find? v).map (Term.rename π) := by
  show List.lookup (π v) (θ.bindings.map _) = (θ.bindings.lookup v).map _
  induction θ.bindings with
  | nil => rfl
  | cons binding rest ih =>
    obtain ⟨w, term⟩ := binding
    have same : (π v == π w) = (v == w) := by
      rw [Bool.eq_iff_iff, beq_iff_eq, beq_iff_eq, one.eq_iff]
    rw [List.map_cons, List.lookup_cons, List.lookup_cons, same]
    split
    · rfl
    · exact ih

theorem follow_rename (θ : Substitution) (steps : Nat) (v : Variable) :
    (θ.rename π).follow steps (π v) = (θ.follow steps v).rename π := by
  induction steps generalizing v with
  | zero => rw [follow, follow, Term.rename_var]
  | succ steps ih =>
    rw [follow, follow, find?_rename one]
    cases θ.find? v with
    | none => exact (Term.rename_var π v).symm
    | some term => cases term <;> simp [ih]

theorem walk_rename (θ : Substitution) (term : Term) :
    (θ.rename π).walk (term.rename π) = (θ.walk term).rename π := by
  cases term with
  | var v =>
    rw [Term.rename_var]
    exact follow_rename one θ θ.weight v
  | atom | number | string | compound => simp [walk]

theorem value_rename (θ : Substitution) (depth : Nat) (v : Variable) :
    (θ.rename π).value depth (π v) = (θ.value depth v).rename π := by
  induction depth generalizing v with
  | zero => rw [value, value, Term.rename_var]
  | succ depth ih =>
    rw [value, value, find?_rename one]
    cases θ.find? v with
    | none => exact (Term.rename_var π v).symm
    | some term =>
      rw [Option.map_some]
      show (term.bind _).bind _ = (term.bind _).bind _
      rw [Term.bind_bind, Term.bind_bind]
      exact Term.bind_congr fun w _ => (Term.bind_var _ _).trans (ih w)

theorem apply_rename (θ : Substitution) (term : Term) :
    (θ.rename π).apply (term.rename π) = (θ.apply term).rename π := by
  show (term.bind _).bind _ = (term.bind _).bind _
  rw [Term.bind_bind, Term.bind_bind]
  exact Term.bind_congr fun v _ => (Term.bind_var _ _).trans (value_rename one θ θ.weight v)

theorem occurs_rename (θ : Substitution) (v : Variable) (term : Term) :
    (θ.rename π).occurs (π v) (term.rename π) = θ.occurs v term := by
  rw [occurs, occurs, apply_rename one, Term.vars_rename, Bool.eq_iff_iff, List.contains_iff_mem,
    List.contains_iff_mem, List.mem_map_of_injective one]

theorem resolve_rename (θ : Substitution) (term : Term) :
    (θ.rename π).resolve (term.rename π) = renamed π (Term.rename π) (θ.resolve term) := by
  rw [resolve, resolve, apply_rename one, Term.fold_rename]

theorem compare_rename (θ : Substitution) (relation : Relation) (left right : Term) :
    (θ.rename π).compare relation (left.rename π) (right.rename π) =
      renamed π id (θ.compare relation left right) := by
  rw [compare, compare, resolve_rename one, resolve_rename one]
  refine renamed_bind (fun s => ?_) _
  refine renamed_bind (fun t => ?_) _
  exact Relation.between_rename one relation s t

theorem restrict_rename (θ : Substitution) {wanted : List Variable} (fixed : ∀ v ∈ wanted, π v = v) :
    (θ.rename π).restrict wanted =
      (θ.restrict wanted).map fun binding => (binding.1, binding.2.rename π) := by
  rw [restrict, restrict, List.map_filterMap]
  refine List.filterMap_congr fun v member => ?_
  have own : (Term.var v).rename π = .var v := by
    rw [Term.rename_var, fixed v (List.mem_eraseDups.mp member)]
  have value : (θ.rename π).apply (.var v) = (θ.apply (.var v)).rename π := by
    rw [← apply_rename one, own]
  have same := Term.beq_rename one (θ.apply (.var v)) (.var v)
  rw [own] at same
  simp only [value, same]
  split <;> rfl

theorem bindVariable?_rename (occursCheck : Bool) (v : Variable) (term : Term)
    (θ : Substitution) :
    bindVariable? occursCheck (π v) (term.rename π) (θ.rename π) =
      (bindVariable? occursCheck v term θ).map (rename π) := by
  rw [bindVariable?, bindVariable?, occurs_rename one]
  split
  · rfl
  · rw [Option.map_some, rename_insert]

omit one in
theorem unifyPairs_rename {step : Term → Term → Substitution → Option Substitution}
    (each : ∀ s t θ, step (s.rename π) (t.rename π) (θ.rename π) = (step s t θ).map (rename π))
    (xs ys : List Term) (θ : Substitution) :
    unifyPairs step (xs.map (Term.rename π)) (ys.map (Term.rename π)) (θ.rename π) =
      (unifyPairs step xs ys θ).map (rename π) := by
  induction xs generalizing ys θ with
  | nil => cases ys <;> simp [unifyPairs]
  | cons x xs ih =>
    cases ys with
    | nil => simp [unifyPairs]
    | cons y ys =>
      rw [List.map_cons, List.map_cons, unifyPairs, unifyPairs, each]
      cases step x y θ with
      | none => rfl
      | some extended => exact ih ys extended

theorem unifyWithin_rename (occursCheck : Bool) (depth : Nat) (s t : Term) (θ : Substitution) :
    unifyWithin occursCheck depth (s.rename π) (t.rename π) (θ.rename π) =
      (unifyWithin occursCheck depth s t θ).map (rename π) := by
  induction depth generalizing s t θ with
  | zero => rfl
  | succ depth ih =>
    have pairs := unifyPairs_rename ih
    have bound := bindVariable?_rename one occursCheck
    rw [unifyWithin, unifyWithin, walk_rename one, walk_rename one, Term.beq_rename one]
    split
    · rfl
    · generalize θ.walk s = first
      generalize θ.walk t = second
      cases first with
      | var v =>
        rw [Term.rename_var]
        exact bound v second θ
      | compound f xs =>
        cases second with
        | var w => simpa using bound w (.compound f xs) θ
        | compound g ys =>
          simp only [Term.rename_compound, List.length_map]
          split
          · exact pairs xs ys θ
          · rfl
        | _ => simp
      | atom name =>
        cases second with
        | var w => simpa using bound w (.atom name) θ
        | _ => simp
      | number value =>
        cases second with
        | var w => simpa using bound w (.number value) θ
        | _ => simp
      | string value =>
        cases second with
        | var w => simpa using bound w (.string value) θ
        | _ => simp

/-- Terms with other names are unified by the same bindings with other names. -/
theorem unify?_rename (occursCheck : Bool) (s t : Term) (θ : Substitution) :
    unify? occursCheck (s.rename π) (t.rename π) (θ.rename π) =
      (unify? occursCheck s t θ).map (rename π) := by
  rw [unify?, unify?, Term.size_rename, Term.size_rename]
  exact unifyWithin_rename one occursCheck _ s t θ

end AgentSpeak.Substitution
