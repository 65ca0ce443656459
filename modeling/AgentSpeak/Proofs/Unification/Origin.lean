import AgentSpeak.Proofs.Term.Instance
import AgentSpeak.Substitution.Unification

namespace AgentSpeak.Substitution

/-- Every variable is bound to a term with a property. -/
def Valued (property : Term → Prop) (θ : Substitution) : Prop :=
  ∀ v term, θ.find? v = some term → property term

/-- Whatever is bound later than in `θ` is a variable with a property as a term. -/
def BindsOnly (property : Term → Prop) (θ θ' : Substitution) : Prop :=
  ∀ v term, θ'.find? v = some term → θ.find? v = some term ∨ property (.var v)

variable {property : Term → Prop} {θ θ' : Substitution} {v : Variable} {s t term : Term}
  {xs ys : List Term} {check : Bool}

theorem valued_empty : empty.Valued property := by
  intro v term found
  simp at found

theorem Valued.insert (values : θ.Valued property) (own : property term) (v : Variable) :
    (θ.insert v term).Valued property := by
  intro w value found
  rw [find?_insert] at found
  split at found
  next =>
    cases found
    exact own
  next => exact values w value found

theorem BindsOnly.refl (θ : Substitution) : BindsOnly property θ θ :=
  fun _ _ found => .inl found

theorem BindsOnly.trans {first second third : Substitution} (one : BindsOnly property first second)
    (two : BindsOnly property second third) : BindsOnly property first third := by
  intro v term found
  rcases two v term found with old | new
  · exact one v term old
  · exact .inr new

theorem bindsOnly_insert (own : property (.var v)) (term : Term) :
    BindsOnly property θ (θ.insert v term) := by
  intro w value found
  rw [find?_insert] at found
  split at found
  next same => exact .inr (same ▸ own)
  next => exact .inl found

theorem Valued.walk (values : θ.Valued property) (own : property term) :
    property (θ.walk term) := by
  have follows (steps : Nat) (v : Variable) (own : property (.var v)) :
      property (θ.follow steps v) := by
    induction steps generalizing v with
    | zero => exact own
    | succ steps ih =>
      rw [follow]
      split
      next => exact own
      next w found => exact ih w (values v _ found)
      next value found => exact values v _ found
  cases term with
  | var v => exact follows θ.weight v own
  | atom name => exact own
  | number value => exact own
  | string value => exact own
  | compound functor arguments => exact own

theorem bindVariable?_origin (own : property (.var v)) (target : property term)
    (values : θ.Valued property) (found : bindVariable? check v term θ = some θ') :
    θ'.Valued property ∧ BindsOnly property θ θ' := by
  rw [bindVariable?] at found
  split at found
  next => cases found
  next =>
    cases found
    exact ⟨values.insert target v, bindsOnly_insert own term⟩

theorem unifyPairs_origin {step : Term → Term → Substitution → Option Substitution}
    (each : ∀ s t θ θ', property s → property t → θ.Valued property → step s t θ = some θ' →
      θ'.Valued property ∧ BindsOnly property θ θ')
    (left : ∀ x ∈ xs, property x) (right : ∀ y ∈ ys, property y) (values : θ.Valued property)
    (found : unifyPairs step xs ys θ = some θ') :
    θ'.Valued property ∧ BindsOnly property θ θ' := by
  induction xs generalizing ys θ with
  | nil =>
    rw [unifyPairs] at found
    · cases found
      exact ⟨values, .refl _⟩
    · simp
  | cons x xs ih =>
    cases ys with
    | nil =>
      rw [unifyPairs] at found
      · cases found
        exact ⟨values, .refl _⟩
      · simp
    | cons y ys =>
      rw [unifyPairs, Option.bind_eq_some_iff] at found
      obtain ⟨middle, first, rest⟩ := found
      obtain ⟨valued, bindsFirst⟩ :=
        each x y θ middle (left x (by simp)) (right y (by simp)) values first
      obtain ⟨valuedAll, bindsRest⟩ := ih (fun other member => left other (by simp [member]))
        (fun other member => right other (by simp [member])) valued rest
      exact ⟨valuedAll, bindsFirst.trans bindsRest⟩

/-- A hereditary property of the two terms and of all bound terms is a property of all terms that
their unifier binds and of the variables that it binds them to. -/
theorem unifyWithin_origin (hereditary : Term.Hereditary property) (depth : Nat)
    (left : property s) (right : property t) (values : θ.Valued property)
    (found : unifyWithin check depth s t θ = some θ') :
    θ'.Valued property ∧ BindsOnly property θ θ' := by
  induction depth generalizing s t θ θ' with
  | zero => cases found
  | succ depth ih =>
    rw [unifyWithin] at found
    have leftWalked := values.walk left
    have rightWalked := values.walk right
    generalize θ.walk s = s' at found leftWalked
    generalize θ.walk t = t' at found rightWalked
    split at found
    next =>
      cases found
      exact ⟨values, .refl θ⟩
    next =>
      split at found
      next => exact bindVariable?_origin leftWalked rightWalked values found
      next => exact bindVariable?_origin rightWalked leftWalked values found
      next =>
        split at found
        next =>
          exact unifyPairs_origin (fun s t θ θ' one two valued result => ih one two valued result)
            (hereditary _ _ leftWalked) (hereditary _ _ rightWalked) values found
        next => cases found
      next => cases found

theorem unify?_origin (hereditary : Term.Hereditary property) (left : property s)
    (right : property t) (values : θ.Valued property) (found : θ.unify? check s t = some θ') :
    θ'.Valued property ∧ BindsOnly property θ θ' :=
  unifyWithin_origin hereditary _ left right values found

/-- Every bound variable and every variable of a bound term is allowed. -/
structure Over (allowed : Variable → Prop) (θ : Substitution) : Prop where
  bound : ∀ v term, θ.find? v = some term → allowed v
  values : θ.Valued (Term.Over allowed)

variable {allowed wider : Variable → Prop}

theorem over_empty : empty.Over allowed :=
  ⟨fun v term found => by simp at found, valued_empty⟩

theorem Over.mono (ranges : θ.Over allowed) (more : ∀ v, allowed v → wider v) : θ.Over wider where
  bound := fun v term found => more v (ranges.bound v term found)
  values := fun v term found => (ranges.values v term found).mono more

/-- A unifier has no other variables than the two terms and the bindings before. -/
theorem Over.unify? (ranges : θ.Over allowed) (left : s.Over allowed) (right : t.Over allowed)
    (found : θ.unify? check s t = some θ') : θ'.Over allowed := by
  obtain ⟨values, bound⟩ :=
    unify?_origin (Term.hereditary_over allowed) left right ranges.values found
  refine ⟨fun v term binding => ?_, values⟩
  rcases bound v term binding with old | new
  · exact ranges.bound v term old
  · exact Term.over_var.mp new

theorem Over.walk (ranges : θ.Over allowed) (own : term.Over allowed) :
    (θ.walk term).Over allowed :=
  ranges.values.walk own

/-- Substituting brings in no other variables than those of the bound terms. -/
theorem Over.apply (ranges : θ.Over allowed) (own : term.Over allowed) :
    (θ.apply term).Over allowed := by
  have within (depth : Nat) (v : Variable) (known : allowed v) :
      (θ.value depth v).Over allowed := by
    induction depth generalizing v with
    | zero => exact Term.over_var.mpr known
    | succ depth ih =>
      rw [value]
      split
      next => exact Term.over_var.mpr known
      next value found =>
        exact Term.over_bind fun w inside => ih w (ranges.values v value found w inside)
  exact Term.over_bind fun v inside => within _ v (own v inside)

theorem find?_without (θ : Substitution) (fresh : List Variable) (v : Variable) :
    (θ.without fresh).find? v = if v ∈ fresh then none else θ.find? v := by
  show (θ.bindings.filter fun binding => !fresh.contains binding.1).lookup v =
    if v ∈ fresh then none else θ.bindings.lookup v
  induction θ.bindings with
  | nil => simp
  | cons binding rest ih =>
    obtain ⟨w, term⟩ := binding
    by_cases dropped : w ∈ fresh
    · have other (kept : v ∉ fresh) : (v == w) = false := by
        simpa using fun same : v = w => kept (same ▸ dropped)
      rw [List.filter_cons_of_neg (by simpa using dropped), ih]
      split
      next => rfl
      next kept => rw [List.lookup_cons, other kept]
    · rw [List.filter_cons_of_pos (by simpa using dropped), List.lookup_cons, ih, List.lookup_cons]
      by_cases same : v = w
      · simp [same, dropped]
      · have different : (v == w) = false := by simpa using same
        simp [different]

theorem Over.without (ranges : θ.Over allowed) (fresh : List Variable) :
    (θ.without fresh).Over allowed := by
  have kept v term (found : (θ.without fresh).find? v = some term) : θ.find? v = some term := by
    rw [find?_without] at found
    split at found
    next => cases found
    next => exact found
  exact ⟨fun v term found => ranges.bound v term (kept v term found),
    fun v term found => ranges.values v term (kept v term found)⟩

end AgentSpeak.Substitution
