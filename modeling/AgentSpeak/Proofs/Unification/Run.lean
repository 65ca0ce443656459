import AgentSpeak.Proofs.Substitution.Traversal
import AgentSpeak.Proofs.Term.Equality
import AgentSpeak.Substitution.Unification

/-!
Runs of unification. A run is a finite derivation of the unbounded procedure: walk both terms, stop
if they are equal, bind a variable, or go into the arguments of two compound terms. With the occurs
check a run keeps an acyclic substitution acyclic.
-/

namespace AgentSpeak

/-- Terms, neither of them a variable, whose heads differ. -/
def Term.Clashes : Term → Term → Prop
  | .var _, _ => False
  | _, .var _ => False
  | .compound f xs, .compound g ys => ¬(f = g ∧ xs.length = ys.length)
  | _, _ => True

namespace Substitution

/-- Binding an unbound variable, unless it is asked to check occurrences and finds one. -/
inductive Binds (check : Bool) (θ : Substitution) (v : Variable) (term : Term) :
    Option Substitution → Prop where
  | refused (asked : check = true) (found : Searches θ v term true) : Binds check θ v term none
  | bound (clear : check = true → Searches θ v term false) :
      Binds check θ v term (some (θ.insert v term))

mutual

/-- The runs of unification on two terms, with their outcomes. -/
inductive Unifies (check : Bool) : Term → Term → Substitution → Option Substitution → Prop where
  | same (left : Walks θ s s') (right : Walks θ t t') (equal : (s' == t') = true) :
      Unifies check s t θ (some θ)
  | bindLeft (left : Walks θ s (.var v)) (right : Walks θ t t')
      (apart : (Term.var v == t') = false) (binds : Binds check θ v t' outcome) :
      Unifies check s t θ outcome
  | bindRight (left : Walks θ s s') (right : Walks θ t (.var v)) (rigid : s'.isVariable = false)
      (binds : Binds check θ v s' outcome) : Unifies check s t θ outcome
  | descend (left : Walks θ s (.compound functor xs)) (right : Walks θ t (.compound functor ys))
      (apart : (Term.compound functor xs == .compound functor ys) = false)
      (arity : xs.length = ys.length) (each : UnifiesAll check xs ys θ outcome) :
      Unifies check s t θ outcome
  | clash (left : Walks θ s s') (right : Walks θ t t') (apart : (s' == t') = false)
      (differ : s'.Clashes t') : Unifies check s t θ none

/-- The runs of unification on pairs of terms, up to the first pair that has no unifier. -/
inductive UnifiesAll (check : Bool) :
    List Term → List Term → Substitution → Option Substitution → Prop where
  | nil : UnifiesAll check [] [] θ (some θ)
  | failed (first : Unifies check x y θ none) : UnifiesAll check (x :: xs) (y :: ys) θ none
  | cons (first : Unifies check x y θ (some middle))
      (rest : UnifiesAll check xs ys middle outcome) :
      UnifiesAll check (x :: xs) (y :: ys) θ outcome

end

variable {check : Bool} {θ θ' : Substitution} {s t : Term} {xs ys : List Term}
  {outcome : Option Substitution}

theorem Binds.extends {v : Variable} {term : Term} (binds : Binds check θ v term outcome)
    (free : θ.find? v = none) : ∀ θ', outcome = some θ' → θ'.Extends θ := by
  cases binds with
  | refused asked found => simp
  | bound clear =>
    rintro _ ⟨⟩
    exact extends_insert free term

mutual

/-- A run keeps every binding. -/
theorem Unifies.extends {check : Bool} {s t : Term} {θ : Substitution}
    {outcome : Option Substitution} :
    Unifies check s t θ outcome → ∀ θ', outcome = some θ' → θ'.Extends θ
  | .same _ _ _, _, rfl => .refl θ
  | .bindLeft left _ _ binds, θ', found => binds.extends left.unbound_of_var θ' found
  | .bindRight _ right _ binds, θ', found => binds.extends right.unbound_of_var θ' found
  | .descend _ _ _ _ each, θ', found => each.extends θ' found

theorem UnifiesAll.extends {check : Bool} {xs ys : List Term} {θ : Substitution}
    {outcome : Option Substitution} :
    UnifiesAll check xs ys θ outcome → ∀ θ', outcome = some θ' → θ'.Extends θ
  | .nil, _, rfl => .refl θ
  | .cons first rest, θ', found => (first.extends _ rfl).trans (rest.extends θ' found)

end

private theorem refers_insert {v : Variable} {term : Term} {a b : Variable}
    (refers : (θ.insert v term).Refers a b) : a = v ∧ b ∈ term.vars ∨ θ.Refers a b := by
  obtain ⟨value, found, member⟩ := refers
  rw [find?_insert] at found
  split at found
  next same =>
    cases found
    exact .inl ⟨same, member⟩
  next => exact .inr ⟨value, found, member⟩

private theorem path_insert {v : Variable} {term : Term} {a b : Variable}
    (clear : ∀ c ∈ term.vars, ¬Relation.ReflTransGen θ.Refers c v)
    (path : Relation.TransGen (θ.insert v term).Refers a b) :
    Relation.TransGen θ.Refers a b ∨ Relation.ReflTransGen θ.Refers a v ∧
      ∃ c ∈ term.vars, Relation.ReflTransGen θ.Refers c b := by
  induction path with
  | single step =>
    rcases refers_insert step with ⟨same, member⟩ | old
    · exact .inr ⟨same ▸ .refl, _, member, .refl⟩
    · exact .inl (.single old)
  | tail earlier step ih =>
    rcases refers_insert step with ⟨same, member⟩ | old
    · subst same
      rcases ih with path | ⟨_, c, inside, path⟩
      · exact .inr ⟨path.to_reflTransGen, _, member, .refl⟩
      · exact absurd path (clear c inside)
    · rcases ih with path | ⟨start, c, inside, path⟩
      · exact .inl (path.tail old)
      · exact .inr ⟨start, c, inside, path.tail old⟩

/-- Binding a variable to a term that does not lead back to it makes no cycle. -/
theorem Acyclic.insert {v : Variable} {term : Term} (acyclic : θ.Acyclic)
    (clear : ∀ c ∈ term.vars, ¬Relation.ReflTransGen θ.Refers c v) :
    (θ.insert v term).Acyclic := by
  intro a cycle
  rcases path_insert clear cycle with old | ⟨start, c, inside, path⟩
  · exact acyclic a old
  · exact clear c inside (path.trans start)

theorem acyclic_single (v : Variable) (term : Term) (clear : v ∉ term.vars) :
    (empty.insert v term).Acyclic := by
  refine acyclic_empty.insert fun c member path => ?_
  rcases Relation.ReflTransGen.cases_head path with same | ⟨w, ⟨value, found, _⟩, _⟩
  · exact clear (same ▸ member)
  · simp at found

/-- A term leads to an unbound variable exactly if its full value contains it. -/
theorem Acyclic.mem_apply_iff {v : Variable} {term : Term} (acyclic : θ.Acyclic)
    (free : θ.find? v = none) :
    v ∈ (θ.apply term).vars ↔ ∃ w ∈ term.vars, Relation.ReflTransGen θ.Refers w v := by
  induction term using acyclic.resolving with
  | atom name => simp [Term.vars]
  | number value => simp [Term.vars]
  | string value => simp [Term.vars]
  | unbound w unbound =>
    rw [apply_unbound unbound, Term.vars_var]
    simp only [List.mem_singleton, exists_eq_left]
    constructor
    · rintro rfl
      exact .refl
    · intro path
      rcases Relation.ReflTransGen.cases_head path with same | ⟨_, ⟨_, found, _⟩, _⟩
      · exact same.symm
      · simp [unbound] at found
  | bound w value found ih =>
    rw [acyclic.apply_bound found, ih, Term.vars_var]
    simp only [List.mem_singleton, exists_eq_left]
    constructor
    · rintro ⟨u, member, path⟩
      exact .head ⟨value, found, member⟩ path
    · intro path
      rcases Relation.ReflTransGen.cases_head path with same | ⟨u, ⟨other, again, member⟩, path⟩
      · simp [same, free] at found
      · rw [found] at again
        cases again
        exact ⟨u, member, path⟩
  | compound functor arguments parts =>
    rw [apply_compound, Term.vars_compound, Term.vars_compound, List.flatMap_map]
    simp only [List.mem_flatMap]
    constructor
    · rintro ⟨argument, member, found⟩
      obtain ⟨w, occurs, path⟩ := (parts argument member).mp found
      exact ⟨w, ⟨argument, member, occurs⟩, path⟩
    · rintro ⟨w, ⟨argument, member, occurs⟩, path⟩
      exact ⟨argument, member, (parts argument member).mpr ⟨w, occurs, path⟩⟩

theorem Binds.acyclic {v : Variable} {term : Term} (binds : Binds true θ v term outcome)
    (free : θ.find? v = none) (acyclic : θ.Acyclic) : ∀ θ', outcome = some θ' → θ'.Acyclic := by
  cases binds with
  | refused asked found => simp
  | bound clear =>
    rintro _ ⟨⟩
    apply acyclic.insert
    intro c inside path
    have present := (acyclic.mem_apply_iff free).mpr ⟨c, inside, path⟩
    simpa using ((clear rfl).iff_mem_apply acyclic).mpr present

mutual

/-- With the occurs check a run keeps a substitution acyclic. -/
theorem Unifies.acyclic {s t : Term} {θ : Substitution} {outcome : Option Substitution} :
    Unifies true s t θ outcome → θ.Acyclic → ∀ θ', outcome = some θ' → θ'.Acyclic
  | .same _ _ _, acyclic, _, rfl => acyclic
  | .bindLeft left _ _ binds, acyclic, θ', found =>
    binds.acyclic left.unbound_of_var acyclic θ' found
  | .bindRight _ right _ binds, acyclic, θ', found =>
    binds.acyclic right.unbound_of_var acyclic θ' found
  | .descend _ _ _ _ each, acyclic, θ', found => each.acyclic acyclic θ' found

theorem UnifiesAll.acyclic {xs ys : List Term} {θ : Substitution}
    {outcome : Option Substitution} :
    UnifiesAll true xs ys θ outcome → θ.Acyclic → ∀ θ', outcome = some θ' → θ'.Acyclic
  | .nil, acyclic, _, rfl => acyclic
  | .cons first rest, acyclic, θ', found =>
    rest.acyclic (first.acyclic acyclic _ rfl) θ' found

end

end Substitution

end AgentSpeak
