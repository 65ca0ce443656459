import AgentSpeak.Proofs.Unification.Origin
import AgentSpeak.Proofs.Unification.Run

/-!
Unification with the occurs check ends on acyclic substitutions. The terms met along a path of the
recursion are parts of the two terms and of the bound terms. Under all later bindings each of them
has a smaller value than those before it, so no path meets one of them twice, and the bound of
`unify?` is never reached.
-/

namespace AgentSpeak

namespace Term

mutual

/-- The compound parts of a term, itself included. -/
def compounds : Term → List Term
  | .compound functor arguments => .compound functor arguments :: compoundsAll arguments
  | _ => []

/-- The compound parts of each term of a list. -/
def compoundsAll : List Term → List Term
  | [] => []
  | term :: rest => compounds term ++ compoundsAll rest

end

theorem compoundsAll_eq_flatMap (terms : List Term) :
    compoundsAll terms = terms.flatMap compounds := by
  induction terms with
  | nil => rfl
  | cons term rest ih => simp [compoundsAll, ih]

theorem length_compounds_le (term : Term) : term.compounds.length ≤ term.size := by
  induction term using structural with
  | atom name => simp [compounds]
  | number value => simp [compounds]
  | string value => simp [compounds]
  | var v => simp [compounds]
  | compound functor arguments ih =>
    have bound : (compoundsAll arguments).length ≤ sizeAll arguments := by
      induction arguments with
      | nil => simp [compoundsAll]
      | cons first rest tail =>
        have head := ih first (by simp)
        have others := tail fun argument member => ih argument (by simp [member])
        rw [compoundsAll, sizeAll, List.length_append]
        omega
    rw [compounds, size, List.length_cons]
    exact Nat.succ_le_succ bound

theorem hereditary_compounds (pool : List Term) :
    Hereditary fun term => term.compounds ⊆ pool := by
  intro functor arguments inside argument member part present
  apply inside
  rw [compounds, compoundsAll_eq_flatMap]
  exact List.mem_cons_of_mem _ (List.mem_flatMap.mpr ⟨argument, member, present⟩)

end Term

namespace Substitution

variable {θ middle : Substitution} {s t part : Term} {v : Variable}

/-- Whatever is bound later, one term keeps a smaller value than another. -/
def Below (θ : Substitution) (term above : Term) : Prop :=
  ∀ later : Substitution, later.Acyclic → later.Extends θ →
    (later.apply term).size < (later.apply above).size

theorem Below.extends (below : θ.Below s t) (extended : middle.Extends θ) : middle.Below s t :=
  fun later acyclic grown => below later acyclic (extended.trans grown)

/-- An argument stays below the compound term that a walk found, and below all that is above it. -/
theorem Walks.below_argument {functor : String} {arguments : List Term}
    (walks : Walks θ s (.compound functor arguments)) (member : part ∈ arguments) :
    θ.Below part s := by
  intro later acyclic extended
  rw [← walks.apply_eq acyclic extended, apply_compound]
  exact Term.size_lt_compound functor (List.mem_map.mpr ⟨part, member, rfl⟩)

theorem below_argument (member : part ∈ arguments) : θ.Below part (.compound functor arguments) :=
  (Walks.rigid rfl).below_argument member

theorem Below.trans {u : Term} (first : θ.Below s t) (second : θ.Below t u) : θ.Below s u :=
  fun later acyclic extended =>
    Nat.lt_trans (first later acyclic extended) (second later acyclic extended)

/-- What a walk found is not on a path that lies above. -/
theorem Walks.not_mem_path {path : List Term} {found : Term} (walks : Walks θ s found)
    (acyclic : θ.Acyclic) (above : ∀ part ∈ path, θ.Below s part) : found ∉ path := by
  intro again
  have smaller := above _ again θ acyclic (.refl θ)
  rw [← walks.apply_eq acyclic (.refl θ)] at smaller
  exact Nat.lt_irrefl _ smaller

/-- The path grows by the term that a walk found, and an argument of this term lies below all of
it. -/
theorem Walks.below_path {functor : String} {arguments path : List Term}
    (walks : Walks θ s (.compound functor arguments)) (member : part ∈ arguments)
    (above : ∀ other ∈ path, θ.Below s other) :
    ∀ other ∈ Term.compound functor arguments :: path, θ.Below part other := by
  intro other inside
  rcases List.mem_cons.mp inside with same | earlier
  · exact same ▸ Substitution.below_argument member
  · exact (walks.below_argument member).trans (above other earlier)

theorem Acyclic.binds (acyclic : θ.Acyclic) (v : Variable) (term : Term) :
    Binds true θ v term (bindVariable? true v term θ) := by
  have search := acyclic.searches v term
  rw [bindVariable?, Bool.true_and]
  split
  next found => exact .refused rfl (found ▸ search)
  next missing => exact .bound fun _ => Bool.eq_false_iff.mpr missing ▸ search

/-- Pairs are unified one after the other, each under the bindings of those before it. -/
private theorem unifyPairs_run {step : Term → Term → Substitution → Option Substitution}
    (invariant : Substitution → Prop) {xs ys : List Term} (arity : xs.length = ys.length)
    (each : ∀ x ∈ xs, ∀ y ∈ ys, ∀ θ, invariant θ → Unifies true x y θ (step x y θ) ∧
      ∀ middle, step x y θ = some middle → invariant middle)
    (start : invariant θ) : UnifiesAll true xs ys θ (unifyPairs step xs ys θ) := by
  induction xs generalizing ys θ with
  | nil =>
    obtain rfl := List.length_eq_zero_iff.mp arity.symm
    exact .nil
  | cons x xs ih =>
    cases ys with
    | nil => cases arity
    | cons y ys =>
      obtain ⟨run, kept⟩ := each x (by simp) y (by simp) θ start
      rw [unifyPairs]
      cases outcome : step x y θ with
      | none => exact .failed (outcome ▸ run)
      | some middle =>
        refine .cons (outcome ▸ run) (ih (Nat.succ.inj arity) ?_ (kept middle outcome))
        exact fun a left b right => each a (by simp [left]) b (by simp [right])

/-- Two terms that are no variables and not both compound do not unify unless they are equal. -/
theorem clashes_of_apart (noLeft : ∀ v, s = .var v → False) (noRight : ∀ v, t = .var v → False)
    (noPair : ∀ f xs g ys, s = .compound f xs → t = .compound g ys → False) : s.Clashes t := by
  cases s <;> cases t <;> simp only [Term.Clashes]
  case var.atom v _ | var.number v _ | var.string v _ | var.var v _ | var.compound v _ _ =>
    exact noLeft v rfl
  case atom.var v | number.var v | string.var v | compound.var v => exact noRight v rfl
  case compound.compound => exact absurd rfl (noPair _ _ _ _ rfl)

/-- Within the bound the unbounded procedure ends. The compound terms met on the way lie in `path`,
those that can be met lie in `pool`. -/
private theorem unifyWithin_run (pool path : List Term) (depth : Nat) (acyclic : θ.Acyclic)
    (left : s.compounds ⊆ pool) (right : t.compounds ⊆ pool)
    (values : θ.Valued fun term => term.compounds ⊆ pool) (distinct : path.Nodup)
    (inside : path ⊆ pool) (above : ∀ part ∈ path, θ.Below s part)
    (enough : pool.length < path.length + depth) :
    Unifies true s t θ (unifyWithin true depth s t θ) := by
  induction depth generalizing s t θ path with
  | zero =>
    have bound := distinct.length_le_of_subset inside
    omega
  | succ depth ih =>
    have leftWalk := acyclic.walks s
    have rightWalk := acyclic.walks t
    have leftPool := values.walk left
    have rightPool := values.walk right
    rw [unifyWithin]
    generalize θ.walk s = s' at leftWalk leftPool ⊢
    generalize θ.walk t = t' at rightWalk rightPool ⊢
    split
    next equal => exact .same leftWalk rightWalk equal
    next differ =>
      have apart := Bool.eq_false_iff.mpr differ
      split
      next v => exact .bindLeft leftWalk rightWalk apart (acyclic.binds v _)
      next v rigid =>
        refine .bindRight leftWalk rightWalk ?_ (acyclic.binds v _)
        cases s' <;> simp_all [Term.isVariable]
      next f xs g ys =>
        split
        next same =>
          obtain ⟨rfl, arity⟩ := same
          have fresh := leftWalk.not_mem_path acyclic above
          refine .descend leftWalk rightWalk apart arity (unifyPairs_run
            (fun later => later.Acyclic ∧ later.Extends θ ∧
              later.Valued fun term => term.compounds ⊆ pool)
            arity ?_ ⟨acyclic, .refl θ, values⟩)
          rintro x inLeft y inRight later ⟨laterAcyclic, extended, laterValues⟩
          have xPool := Term.hereditary_compounds pool f xs leftPool x inLeft
          have yPool := Term.hereditary_compounds pool f ys rightPool y inRight
          have run : Unifies true x y later (unifyWithin true depth x y later) := by
            apply ih (.compound f xs :: path) laterAcyclic xPool yPool laterValues
            · exact List.nodup_cons.mpr ⟨fresh, distinct⟩
            · exact List.cons_subset.mpr ⟨leftPool (by simp [Term.compounds]), inside⟩
            · intro part member
              exact (leftWalk.below_path inLeft above part member).extends extended
            · rw [List.length_cons]
              omega
          refine ⟨run, fun middle found => ⟨run.acyclic laterAcyclic middle found,
            extended.trans (run.extends middle found), ?_⟩⟩
          exact (unifyWithin_origin (Term.hereditary_compounds pool) depth xPool yPool laterValues
            found).1
        next differ => exact .clash leftWalk rightWalk apart differ
      next noLeft noRight noPair =>
        exact .clash leftWalk rightWalk apart (clashes_of_apart noLeft noRight noPair)

/-- The compound parts of two terms and of all bound terms. -/
def parts (θ : Substitution) (s t : Term) : List Term :=
  s.compounds ++ t.compounds ++ θ.bindings.flatMap fun binding => binding.2.compounds

theorem length_parts_le (θ : Substitution) (s t : Term) :
    (θ.parts s t).length ≤ s.size + t.size + θ.weight := by
  have bound : (θ.bindings.flatMap fun binding => binding.2.compounds).length ≤ θ.weight := by
    rw [θ.weight_eq]
    induction θ.bindings with
    | nil => exact Nat.le_refl _
    | cons binding rest ih =>
      have own := binding.2.length_compounds_le
      rw [List.flatMap_cons, List.length_append, bindingsWeight]
      omega
  have left := s.length_compounds_le
  have right := t.length_compounds_le
  simp only [parts, List.length_append]
  omega

/-- On an acyclic substitution `unify?` gives what the unbounded procedure ends with. -/
theorem Acyclic.unifies (acyclic : θ.Acyclic) (s t : Term) :
    Unifies true s t θ (θ.unify? true s t) := by
  apply unifyWithin_run (θ.parts s t) [] _ acyclic
  · exact fun part member => List.mem_append_left _ (List.mem_append_left _ member)
  · exact fun part member => List.mem_append_left _ (List.mem_append_right _ member)
  · intro v term found part member
    exact List.mem_append_right _ (List.mem_flatMap.mpr ⟨_, mem_of_find? found, member⟩)
  · exact List.nodup_nil
  · exact List.nil_subset _
  · intro part member
    cases member
  · have bound := θ.length_parts_le s t
    have square := Nat.le_mul_self (s.size + t.size + θ.weight)
    rw [List.length_nil]
    omega

/-- With the occurs check a unifier is acyclic. -/
theorem Acyclic.of_unify? {θ' : Substitution} (acyclic : θ.Acyclic)
    (found : θ.unify? true s t = some θ') : θ'.Acyclic :=
  (acyclic.unifies s t).acyclic acyclic θ' found

/-- Unification with the occurs check ends on an acyclic substitution. A unifier is acyclic, so
that walking, substituting and looking for a variable end on it. It keeps every binding, and
what it binds besides are unbound variables of the two terms and of the bound terms. -/
theorem unify?_ends (s t : Term) (acyclic : θ.Acyclic) :
    Unifies true s t θ (θ.unify? true s t) ∧
      ∀ θ', θ.unify? true s t = some θ' →
        θ'.Acyclic ∧
        (∀ term, Walks θ' term (θ'.walk term)) ∧
        (∀ term, Resolves θ' term (θ'.apply term)) ∧
        (∀ v term, Searches θ' v term (θ'.occurs v term)) ∧
        θ'.Extends θ ∧
        ∀ v term, θ'.find? v = some term → θ.find? v = some term ∨
          θ.find? v = none ∧ (v ∈ s.vars ∨ v ∈ t.vars ∨
            ∃ w value, θ.find? w = some value ∧ v ∈ value.vars) := by
  have run := acyclic.unifies s t
  refine ⟨run, fun θ' found => ?_⟩
  have kept := run.extends θ' found
  have acyclic' := run.acyclic acyclic θ' found
  refine ⟨acyclic', acyclic'.walks, acyclic'.resolves, acyclic'.searches, kept, ?_⟩
  intro v term binding
  have origin := unify?_origin (Term.hereditary_over fun v => v ∈ s.vars ∨ v ∈ t.vars ∨
    ∃ w value, θ.find? w = some value ∧ v ∈ value.vars) (fun v member => .inl member)
    (fun v member => .inr (.inl member))
    (fun w value bound v member => .inr (.inr ⟨w, value, bound, member⟩)) found
  rcases origin.2 v term binding with old | new
  · exact .inl old
  · cases before : θ.find? v with
    | none => exact .inr ⟨rfl, Term.over_var.mp new⟩
    | some value => exact .inl ((kept v value before).symm.trans binding ▸ rfl)

/-- With `X` bound to `f(Y)`, unifying `X` with `f(a)` binds `Y` besides. -/
theorem unify?_ends_bound :
    (empty.insert ⟨"X", []⟩ (.compound "f" [.var ⟨"Y", []⟩])).Acyclic ∧
      ∃ θ', (empty.insert ⟨"X", []⟩ (.compound "f" [.var ⟨"Y", []⟩])).unify? true
          (.var ⟨"X", []⟩) (.compound "f" [.atom "a"]) = some θ' ∧
        θ'.Acyclic ∧ θ'.find? ⟨"X", []⟩ = some (.compound "f" [.var ⟨"Y", []⟩]) := by
  have acyclic := acyclic_single ⟨"X", []⟩ (.compound "f" [.var ⟨"Y", []⟩]) (by decide)
  obtain ⟨run, ends⟩ := unify?_ends (.var ⟨"X", []⟩) (.compound "f" [.atom "a"]) acyclic
  obtain ⟨acyclic', -, -, -, kept, -⟩ := ends _ rfl
  exact ⟨acyclic, _, rfl, acyclic', kept _ _ rfl⟩

end Substitution

end AgentSpeak
