import AgentSpeak.Proofs.Substitution.Acyclic

/-!
Following bindings without a bound. Each relation here has a finite derivation exactly where the
procedure that it describes comes to an end, so a derivation for the value of `walk`, `apply` or
`occurs` says that this value is what the unbounded procedure ends with.
-/

namespace AgentSpeak

namespace Term

/-- Whether a term is a variable. -/
def isVariable : Term → Bool
  | .var _ => true
  | _ => false

/-- Whether a term has arguments to go into. -/
def isCompound : Term → Bool
  | .compound .. => true
  | _ => false

end Term

namespace Substitution

/-- A walk follows bindings from one variable to the next. -/
inductive Walks (θ : Substitution) : Term → Term → Prop where
  | rigid (stops : term.isVariable = false) : Walks θ term term
  | unbound (free : θ.find? v = none) : Walks θ (.var v) (.var v)
  | bound (found : θ.find? v = some target) (rest : Walks θ target result) :
      Walks θ (.var v) result

mutual

/-- Substituting walks and goes into the arguments of what it finds. -/
inductive Resolves (θ : Substitution) : Term → Term → Prop where
  | leaf (walked : Walks θ term result) (stops : result.isCompound = false) :
      Resolves θ term result
  | compound (walked : Walks θ term (.compound functor arguments))
      (each : ResolvesAll θ arguments results) : Resolves θ term (.compound functor results)

/-- Substituting in one term after the other. -/
inductive ResolvesAll (θ : Substitution) : List Term → List Term → Prop where
  | nil : ResolvesAll θ [] []
  | cons (first : Resolves θ term result) (rest : ResolvesAll θ terms results) :
      ResolvesAll θ (term :: terms) (result :: results)

end

mutual

/-- Looking for an unbound variable walks and goes into the arguments up to the first hit. -/
inductive Searches (θ : Substitution) (v : Variable) : Term → Bool → Prop where
  | unbound (walked : Walks θ term (.var w)) : Searches θ v term (v == w)
  | constant (walked : Walks θ term result) (rigid : result.isVariable = false)
      (stops : result.isCompound = false) : Searches θ v term false
  | compound (walked : Walks θ term (.compound functor arguments))
      (each : SearchesAny θ v arguments found) : Searches θ v term found

/-- Looking for a variable in one term after the other. -/
inductive SearchesAny (θ : Substitution) (v : Variable) : List Term → Bool → Prop where
  | nil : SearchesAny θ v [] false
  | hit (first : Searches θ v term true) : SearchesAny θ v (term :: terms) true
  | miss (first : Searches θ v term false) (rest : SearchesAny θ v terms found) :
      SearchesAny θ v (term :: terms) found

end

variable {θ later : Substitution} {v : Variable} {term result : Term}

/-- A walk ends at an unbound variable or at no variable. -/
theorem Walks.ends (walks : Walks θ term result) :
    result.isVariable = false ∨ ∃ w, result = .var w ∧ θ.find? w = none := by
  induction walks with
  | rigid stops => exact .inl stops
  | @unbound w free => exact .inr ⟨w, rfl, free⟩
  | bound found rest ih => exact ih

theorem Walks.unbound_of_var (walks : Walks θ term (.var v)) : θ.find? v = none := by
  rcases walks.ends with rigid | ⟨w, same, free⟩
  · simp [Term.isVariable] at rigid
  · cases same
    exact free

/-- Walking changes no full value, also under bindings that come later. -/
theorem Walks.apply_eq (walks : Walks θ term result) (acyclic : later.Acyclic)
    (extends_ : later.Extends θ) : later.apply result = later.apply term := by
  induction walks with
  | rigid stops => rfl
  | unbound free => rfl
  | bound found rest ih => rw [ih, acyclic.apply_bound (extends_ _ _ found)]

theorem Walks.hereditary {property : Term → Prop} (walks : Walks θ term result)
    (own : property term) (values : ∀ w value, θ.find? w = some value → property value) :
    property result := by
  induction walks with
  | rigid stops => exact own
  | unbound free => exact own
  | bound found rest ih => exact ih (values _ _ found)

/-- On an acyclic substitution every walk ends. -/
theorem Acyclic.walks (acyclic : θ.Acyclic) (term : Term) : Walks θ term (θ.walk term) := by
  induction term using acyclic.resolving with
  | atom name => exact .rigid rfl
  | number value => exact .rigid rfl
  | string value => exact .rigid rfl
  | unbound v free =>
    rw [walk_unbound free]
    exact .unbound free
  | bound v value found ih =>
    rw [acyclic.walk_bound found]
    exact .bound found ih
  | compound functor arguments parts => exact .rigid rfl

theorem Resolves.bound {value : Term} (found : θ.find? v = some value)
    (resolves : Resolves θ value result) : Resolves θ (.var v) result := by
  cases resolves with
  | leaf walked stops => exact .leaf (.bound found walked) stops
  | compound walked each => exact .compound (.bound found walked) each

theorem resolvesAll_map {terms : List Term} {f : Term → Term}
    (each : ∀ term ∈ terms, Resolves θ term (f term)) : ResolvesAll θ terms (terms.map f) := by
  induction terms with
  | nil => exact .nil
  | cons term rest ih =>
    exact .cons (each term (by simp)) (ih fun other member => each other (by simp [member]))

/-- On an acyclic substitution substituting ends. -/
theorem Acyclic.resolves (acyclic : θ.Acyclic) (term : Term) :
    Resolves θ term (θ.apply term) := by
  induction term using acyclic.resolving with
  | atom name =>
    rw [apply_atom]
    exact .leaf (.rigid rfl) rfl
  | number value =>
    rw [apply_number]
    exact .leaf (.rigid rfl) rfl
  | string value =>
    rw [apply_string]
    exact .leaf (.rigid rfl) rfl
  | unbound v free =>
    rw [apply_unbound free]
    exact .leaf (.unbound free) rfl
  | bound v value found ih =>
    rw [acyclic.apply_bound found]
    exact ih.bound found
  | compound functor arguments parts =>
    rw [apply_compound]
    exact .compound (.rigid rfl) (resolvesAll_map parts)

theorem Searches.bound {w : Variable} {value : Term} {found : Bool}
    (binding : θ.find? w = some value) (searches : Searches θ v value found) :
    Searches θ v (.var w) found := by
  cases searches with
  | unbound walked => exact .unbound (.bound binding walked)
  | constant walked rigid stops => exact .constant (.bound binding walked) rigid stops
  | compound walked each => exact .compound (.bound binding walked) each

theorem searchesAny_map {terms : List Term} {f : Term → Bool}
    (each : ∀ term ∈ terms, Searches θ v term (f term)) : SearchesAny θ v terms (terms.any f) := by
  induction terms with
  | nil => exact .nil
  | cons term rest ih =>
    have first := each term (by simp)
    rw [List.any_cons]
    cases hit : f term with
    | true => exact .hit (hit ▸ first)
    | false => exact .miss (hit ▸ first) (ih fun other member => each other (by simp [member]))

@[simp] theorem occurs_compound (θ : Substitution) (v : Variable) (functor : String)
    (arguments : List Term) :
    θ.occurs v (.compound functor arguments) = arguments.any (θ.occurs v) := by
  rw [Bool.eq_iff_iff]
  simp only [occurs, apply_compound, Term.vars_compound, List.contains_iff_mem, List.mem_flatMap,
    List.mem_map, List.any_eq_true]
  constructor
  · rintro ⟨_, ⟨argument, member, rfl⟩, found⟩
    exact ⟨argument, member, found⟩
  · rintro ⟨argument, member, found⟩
    exact ⟨_, ⟨argument, member, rfl⟩, found⟩

/-- On an acyclic substitution looking for a variable ends. -/
theorem Acyclic.searches (acyclic : θ.Acyclic) (v : Variable) (term : Term) :
    Searches θ v term (θ.occurs v term) := by
  induction term using acyclic.resolving with
  | atom name => exact .constant (.rigid rfl) rfl rfl
  | number value => exact .constant (.rigid rfl) rfl rfl
  | string value => exact .constant (.rigid rfl) rfl rfl
  | unbound w free =>
    have single : θ.occurs v (.var w) = (v == w) := by
      rw [occurs, apply_unbound free, Term.vars_var, List.contains_cons, List.contains_nil,
        Bool.or_false]
    rw [single]
    exact .unbound (.unbound free)
  | bound w value found ih =>
    have same : θ.occurs v (.var w) = θ.occurs v value := by
      rw [occurs, acyclic.apply_bound found, occurs]
    rw [same]
    exact ih.bound found
  | compound functor arguments parts =>
    rw [occurs_compound]
    exact .compound (.rigid rfl) (searchesAny_map parts)

/-- What a search answers is whether the variable is left in the full value. -/
theorem Searches.iff_mem_apply {found : Bool} (searches : Searches θ v term found)
    (acyclic : θ.Acyclic) : found = true ↔ v ∈ (θ.apply term).vars := by
  induction searches using Searches.rec (motive_2 := fun terms found _ =>
    found = true ↔ v ∈ terms.flatMap fun term => (θ.apply term).vars) with
  | unbound walked =>
    rw [← walked.apply_eq acyclic (.refl θ), apply_unbound walked.unbound_of_var]
    simp
  | @constant term result walked rigid stops =>
    rw [← walked.apply_eq acyclic (.refl θ)]
    cases result <;> simp_all [Term.isVariable, Term.isCompound]
  | compound walked each ih =>
    rw [← walked.apply_eq acyclic (.refl θ), apply_compound, Term.vars_compound, List.flatMap_map]
    exact ih
  | nil => simp
  | hit first ih => simp [ih.mp rfl]
  | miss first rest absent ih =>
    have missing := absent.not.mp (by simp)
    rw [ih, List.flatMap_cons, List.mem_append]
    exact (or_iff_right missing).symm

end Substitution

end AgentSpeak
