import AgentSpeak.Proofs.Number.Place
import AgentSpeak.Proofs.Term.Instance

namespace AgentSpeak.Term

mutual

/-- A term with every number made canonical. -/
def canonical : Term → Term
  | .number value => .number value.canonical
  | .compound functor arguments => .compound functor (canonicalAll arguments)
  | .atom name => .atom name
  | .string value => .string value
  | .var v => .var v

/-- Each term of a list with every number made canonical. -/
def canonicalAll : List Term → List Term
  | [] => []
  | term :: rest => canonical term :: canonicalAll rest

end

theorem canonicalAll_eq_map (terms : List Term) : canonicalAll terms = terms.map canonical := by
  induction terms with
  | nil => rfl
  | cons term rest ih => simp [canonicalAll, ih]

@[simp] theorem canonical_compound (functor : String) (arguments : List Term) :
    (compound functor arguments).canonical = .compound functor (arguments.map canonical) := by
  rw [canonical, canonicalAll_eq_map]

@[simp] theorem canonical_var (v : Variable) : (var v).canonical = .var v := by
  rw [canonical]

theorem canonical_bind (f : Variable → Term) (term : Term) :
    (term.bind f).canonical = term.canonical.bind fun v => (f v).canonical := by
  induction term using structural with
  | atom name => simp [canonical]
  | number value => simp [canonical]
  | string value => simp [canonical]
  | var v => simp
  | compound functor arguments ih =>
    simp only [bind_compound, canonical_compound, List.map_map, compound.injEq, true_and]
    exact List.map_congr_left fun argument member => ih argument member

@[simp] theorem vars_canonical (term : Term) : term.canonical.vars = term.vars := by
  induction term using structural with
  | atom name => rfl
  | number value => simp [canonical, vars]
  | string value => rfl
  | var v => rfl
  | compound functor arguments ih =>
    simp only [canonical_compound, vars_compound, List.flatMap_def, List.map_map]
    exact congrArg List.flatten (List.map_congr_left ih)

private theorem beqAll_iff {xs ys : List Term}
    (each : ∀ x ∈ xs, ∀ y, beq x y = true ↔ x.canonical = y.canonical) :
    beqAll xs ys = true ↔ xs.map canonical = ys.map canonical := by
  induction xs generalizing ys with
  | nil => cases ys <;> simp [beqAll]
  | cons x xs ih =>
    cases ys with
    | nil => simp [beqAll]
    | cons y ys =>
      rw [beqAll, Bool.and_eq_true, each x (by simp) y,
        ih fun other member => each other (by simp [member])]
      simp

/-- Terms are equal exactly if they have one canonical form. -/
theorem beq_iff_canonical {s t : Term} : (s == t) = true ↔ s.canonical = t.canonical := by
  change beq s t = true ↔ _
  induction s using structural generalizing t with
  | atom name => cases t <;> simp [beq, canonical]
  | number value => cases t <;> simp [beq, canonical, Number.same_iff_canonical]
  | string value => cases t <;> simp [beq, canonical]
  | var v => cases t <;> simp [beq, canonical]
  | compound functor arguments ih =>
    cases t with
    | compound other others =>
      rw [beq, Bool.and_eq_true, beq_iff_eq, beqAll_iff fun x member y => ih x member]
      simp
    | atom name => simp [beq, canonical]
    | number value => simp [beq, canonical]
    | string value => simp [beq, canonical]
    | var v => simp [beq, canonical]

instance : ReflBEq Term where
  rfl := beq_iff_canonical.mpr rfl

instance : PartialEquivBEq Term where
  symm equal := beq_iff_canonical.mpr (beq_iff_canonical.mp equal).symm
  trans first second :=
    beq_iff_canonical.mpr ((beq_iff_canonical.mp first).trans (beq_iff_canonical.mp second))

/-- Terms equal to a variable are that variable. -/
@[simp] theorem beq_var_iff {s : Term} {v : Variable} : (s == .var v) = true ↔ s = .var v := by
  rw [beq_iff_canonical]
  cases s <;> simp [canonical]

mutual

/-- The floating-point numbers of a term, in order, as often as they occur. -/
def floats : Term → List Binary64
  | .number (.float x) => [x]
  | .compound _ arguments => floatsAll arguments
  | _ => []

/-- The floating-point numbers of a list of terms. -/
def floatsAll : List Term → List Binary64
  | [] => []
  | term :: rest => floats term ++ floatsAll rest

end

theorem floatsAll_eq_flatMap (terms : List Term) : floatsAll terms = terms.flatMap floats := by
  induction terms with
  | nil => rfl
  | cons term rest ih => rw [floatsAll, ih, List.flatMap_cons]

@[simp] theorem floats_compound (functor : String) (arguments : List Term) :
    (compound functor arguments).floats = arguments.flatMap floats := by
  rw [floats, floatsAll_eq_flatMap]

theorem mem_floats_number {value : Number} {x : Binary64} (same : value = .float x) :
    x ∈ (number value).floats := by
  subst same
  exact List.mem_singleton.mpr rfl

/-- A term in which every number has a value. -/
def Valued (term : Term) : Prop :=
  Binary64.nan ∉ term.floats

instance (term : Term) : Decidable term.Valued :=
  inferInstanceAs (Decidable (_ ∉ _))

theorem hereditary_valued : Hereditary Valued := by
  intro functor arguments valued argument member inside
  apply valued
  rw [floats_compound]
  exact List.mem_flatMap.mpr ⟨argument, member, inside⟩

/-- A number that has a value has a place. -/
theorem Valued.place {value : Number} (valued : (number value).Valued) :
    ∃ p, value.place? = some p := by
  rw [← Option.isSome_iff_exists, Option.isSome_iff_ne_none]
  intro none
  cases value with
  | int value => cases none
  | float x =>
    cases x with
    | nan => exact valued (mem_floats_number rfl)
    | infinite negative => cases none
    | finite negative units fits => cases none

mutual

/-- A term without floating-point numbers. -/
def isExact : Term → Bool
  | .number (.float _) => false
  | .compound _ arguments => isExactAll arguments
  | _ => true

/-- Terms without floating-point numbers. -/
def isExactAll : List Term → Bool
  | [] => true
  | term :: rest => isExact term && isExactAll rest

end

theorem isExactAll_iff (terms : List Term) :
    isExactAll terms = true ↔ ∀ term ∈ terms, term.isExact = true := by
  induction terms with
  | nil => simp [isExactAll]
  | cons term rest ih => simp [isExactAll, ih]

theorem hereditary_isExact : Hereditary fun term => term.isExact = true := by
  intro functor arguments exact
  rw [isExact] at exact
  exact (isExactAll_iff arguments).mp exact

/-- Without floating-point numbers, equality by value is identity. -/
theorem canonical_of_isExact {term : Term} (exact : term.isExact = true) :
    term.canonical = term := by
  induction term using structural with
  | atom name => rfl
  | number value =>
    cases value with
    | int value => rfl
    | float value => simp [isExact] at exact
  | string value => rfl
  | var v => rfl
  | compound functor arguments ih =>
    have kept : arguments.map canonical = arguments.map id :=
      List.map_congr_left fun argument member =>
        ih argument member (hereditary_isExact functor arguments exact argument member)
    rw [canonical_compound, kept, List.map_id]

theorem isExact_bind {f : Variable → Term} {term : Term} (exact : term.isExact = true)
    (values : ∀ v ∈ term.vars, (f v).isExact = true) : (term.bind f).isExact = true := by
  induction term using structural with
  | atom name => rfl
  | number value => simpa using exact
  | string value => rfl
  | var v => simpa using values v (by simp)
  | compound functor arguments ih =>
    rw [bind_compound, isExact, isExactAll_iff]
    intro instantiated member
    obtain ⟨argument, present, same⟩ := List.mem_map.mp member
    subst same
    apply ih argument present (hereditary_isExact functor arguments exact argument present)
    intro v occurs
    exact values v
      (by rw [vars_compound]; exact List.mem_flatMap.mpr ⟨argument, present, occurs⟩)

end AgentSpeak.Term
