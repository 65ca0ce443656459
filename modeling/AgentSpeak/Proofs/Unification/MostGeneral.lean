import AgentSpeak.Proofs.Unification.Termination

/-!
Unifiers are most general. The maps of variables to terms that agree with the bindings of a unifier
are those that agree with the bindings before and make the two terms equal. One run step after the
other keeps this set of maps, so it is empty exactly if unification fails.

Terms are compared by value throughout. On canonical terms that is identity, so the steps are taken
there.
-/

namespace AgentSpeak

namespace Term

theorem size_le_bind {σ : Variable → Term} {term : Term} {v : Variable} (member : v ∈ term.vars) :
    (σ v).size ≤ (term.bind σ).size := by
  induction term using structural with
  | atom name => simp [vars] at member
  | number value => simp [vars] at member
  | string value => simp [vars] at member
  | var w =>
    rw [vars_var, List.mem_singleton] at member
    rw [bind_var, member]
  | compound functor arguments ih =>
    rw [vars_compound, List.mem_flatMap] at member
    obtain ⟨argument, inside, occurs⟩ := member
    have smaller := size_lt_compound functor
      (List.mem_map.mpr ⟨argument, inside, rfl⟩ : argument.bind σ ∈ arguments.map (bind σ))
    rw [bind_compound]
    exact Nat.le_trans (ih argument inside occurs) (Nat.le_of_lt smaller)

/-- No map makes a variable equal to a compound term that contains it. -/
theorem ne_bind_compound {σ : Variable → Term} {functor : String} {arguments : List Term}
    {v : Variable} (member : v ∈ (compound functor arguments).vars) :
    σ v ≠ (compound functor arguments).bind σ := by
  intro equal
  rw [vars_compound, List.mem_flatMap] at member
  obtain ⟨argument, inside, occurs⟩ := member
  have part := size_le_bind (σ := σ) occurs
  have whole := size_lt_compound functor
    (List.mem_map.mpr ⟨argument, inside, rfl⟩ : argument.bind σ ∈ arguments.map (bind σ))
  rw [equal, bind_compound] at part
  omega

theorem var_bne_of_rigid (v : Variable) {term : Term} (rigid : term.isVariable = false) :
    (var v == term) = false := by
  rw [Bool.eq_false_iff]
  intro equal
  rw [beq_var_iff.mp (BEq.symm equal)] at rigid
  cases rigid

theorem Clashes.bind_ne {s t : Term} (differ : s.Clashes t) (apart : (s == t) = false)
    (σ : Variable → Term) : s.canonical.bind σ ≠ t.canonical.bind σ := by
  have distinct : s.canonical ≠ t.canonical := by
    intro equal
    rw [beq_iff_canonical.mpr equal] at apart
    cases apart
  cases s <;> cases t <;> simp_all [Clashes, canonical]
  case compound.compound =>
    intro same equal
    have lengths := congrArg List.length equal
    simp only [canonicalAll_eq_map, List.length_map] at lengths
    exact differ same lengths

end Term

namespace Substitution

/-- A map of variables to terms that agrees with all bindings, by value. -/
def Satisfies (σ : Variable → Term) (θ : Substitution) : Prop :=
  ∀ v term, θ.find? v = some term → (σ v == term.bind σ) = true

/-- A map of variables to terms that agrees with all bindings once their numbers are canonical. -/
def Solves (σ : Variable → Term) (θ : Substitution) : Prop :=
  ∀ v term, θ.find? v = some term → σ v = term.canonical.bind σ

variable {θ : Substitution} {σ : Variable → Term} {s t term : Term} {v : Variable}
  {outcome : Option Substitution}

theorem satisfies_iff_solves :
    Satisfies σ θ ↔ Solves (fun v => (σ v).canonical) θ := by
  apply forall_congr'
  intro v
  apply forall_congr'
  intro term
  rw [Term.beq_iff_canonical, Term.canonical_bind]

theorem Solves.walks {result : Term} (solves : Solves σ θ) (walks : Walks θ term result) :
    term.canonical.bind σ = result.canonical.bind σ := by
  induction walks with
  | rigid stops => rfl
  | unbound free => rfl
  | bound found rest ih => rw [Term.canonical_var, Term.bind_var, solves _ _ found, ih]

/-- To such a map a term is the same as its full value. -/
theorem Solves.apply (solves : Solves σ θ) (acyclic : θ.Acyclic) (term : Term) :
    (θ.apply term).canonical.bind σ = term.canonical.bind σ := by
  induction term using acyclic.resolving with
  | atom name => rw [apply_atom]
  | number value => rw [apply_number]
  | string value => rw [apply_string]
  | unbound v free => rw [apply_unbound free]
  | bound v value found ih =>
    rw [acyclic.apply_bound found, ih, Term.canonical_var, Term.bind_var, solves v value found]
  | compound functor arguments parts =>
    simp only [apply_compound, Term.canonical_compound, Term.bind_compound, List.map_map,
      Term.compound.injEq, true_and]
    exact List.map_congr_left parts

theorem solves_insert (free : θ.find? v = none) :
    Solves σ (θ.insert v term) ↔ Solves σ θ ∧ σ v = term.canonical.bind σ := by
  constructor
  · intro solves
    refine ⟨fun w value found => solves w value (extends_insert free term w value found), ?_⟩
    exact solves v term (by rw [find?_insert, if_pos rfl])
  · rintro ⟨solves, own⟩ w value found
    rw [find?_insert] at found
    split at found
    next same =>
      cases found
      exact same ▸ own
    next => exact solves w value found

theorem Binds.solves_iff (binds : Binds true θ v term outcome) (acyclic : θ.Acyclic)
    (free : θ.find? v = none) (walked : Walks θ term term)
    (apart : (Term.var v == term) = false) (σ : Variable → Term) :
    Solves σ θ ∧ σ v = term.canonical.bind σ ↔ ∃ θ', outcome = some θ' ∧ Solves σ θ' := by
  cases binds with
  | bound clear => simp [solves_insert free]
  | refused asked found =>
    simp only [reduceCtorEq, false_and, exists_false, iff_false]
    rintro ⟨solves, equal⟩
    have present := (found.iff_mem_apply acyclic).mp rfl
    rw [← solves.apply acyclic term] at equal
    cases term with
    | var w =>
      rw [apply_unbound walked.unbound_of_var, Term.vars_var, List.mem_singleton] at present
      simp [present] at apart
    | compound functor arguments =>
      rw [← Term.vars_canonical, apply_compound, Term.canonical_compound] at present
      rw [apply_compound, Term.canonical_compound] at equal
      exact Term.ne_bind_compound present equal
    | atom name => simp at present
    | number value => simp at present
    | string value => simp at present

theorem Walks.self_of_walks {result : Term} (walks : Walks θ term result) :
    Walks θ result result := by
  rcases walks.ends with rigid | ⟨w, same, free⟩
  · exact .rigid rigid
  · exact same ▸ .unbound free

mutual

/-- The maps that agree with the outcome of a run are those that agree with the bindings before it
and make the two terms equal. -/
theorem Unifies.solves_iff {s t : Term} {θ : Substitution} {outcome : Option Substitution}
    (σ : Variable → Term) : Unifies true s t θ outcome → θ.Acyclic →
      (Solves σ θ ∧ s.canonical.bind σ = t.canonical.bind σ ↔
        ∃ θ', outcome = some θ' ∧ Solves σ θ')
  | .same left right equal, acyclic => by
    simp only [Option.some.injEq, exists_eq_left', and_iff_left_iff_imp]
    intro solves
    rw [solves.walks left, solves.walks right, Term.beq_iff_canonical.mp equal]
  | .bindLeft left right apart binds, acyclic => by
    rw [← binds.solves_iff acyclic left.unbound_of_var right.self_of_walks apart σ]
    refine and_congr_right fun solves => ?_
    rw [solves.walks left, solves.walks right, Term.canonical_var, Term.bind_var]
  | .bindRight (v := v) left right rigid binds, acyclic => by
    have apart := Term.var_bne_of_rigid v rigid
    rw [← binds.solves_iff acyclic right.unbound_of_var left.self_of_walks apart σ]
    refine and_congr_right fun solves => ?_
    rw [solves.walks left, solves.walks right, Term.canonical_var, Term.bind_var]
    exact eq_comm
  | .descend left right apart arity each, acyclic => by
    rw [← each.solves_iff σ acyclic]
    refine and_congr_right fun solves => ?_
    rw [solves.walks left, solves.walks right]
    simp only [Term.canonical_compound, Term.bind_compound, List.map_map, Term.compound.injEq,
      true_and]
    exact Iff.rfl
  | .clash left right apart differ, acyclic => by
    simp only [reduceCtorEq, false_and, exists_false, iff_false]
    rintro ⟨solves, equal⟩
    rw [solves.walks left, solves.walks right] at equal
    exact differ.bind_ne apart σ equal

theorem UnifiesAll.solves_iff {xs ys : List Term} {θ : Substitution}
    {outcome : Option Substitution} (σ : Variable → Term) :
    UnifiesAll true xs ys θ outcome → θ.Acyclic →
      (Solves σ θ ∧ xs.map (·.canonical.bind σ) = ys.map (·.canonical.bind σ) ↔
        ∃ θ', outcome = some θ' ∧ Solves σ θ')
  | .nil, acyclic => by simp
  | .failed first, acyclic => by
    have none := first.solves_iff σ acyclic
    simp only [reduceCtorEq, false_and, exists_false, iff_false, not_and] at none ⊢
    intro solves equal
    exact none solves (List.cons.inj equal).1
  | .cons first rest, acyclic => by
    rw [← rest.solves_iff σ (first.acyclic acyclic _ rfl)]
    have one := first.solves_iff σ acyclic
    simp only [Option.some.injEq, exists_eq_left'] at one
    rw [← one, List.map_cons, List.map_cons, List.cons.injEq, and_assoc]

end

/-- An acyclic substitution agrees with its own full values. -/
theorem Acyclic.satisfies (acyclic : θ.Acyclic) : Satisfies (fun v => θ.apply (.var v)) θ := by
  intro v term found
  show (θ.apply (.var v) == _) = true
  rw [acyclic.apply_bound found, apply_eq_bind]
  exact BEq.rfl

/-- The maps that satisfy the bindings and make two terms equal are those that satisfy a unifier. -/
theorem Acyclic.satisfies_unify?_iff (acyclic : θ.Acyclic) (s t : Term) (σ : Variable → Term) :
    Satisfies σ θ ∧ (s.bind σ == t.bind σ) = true ↔
      ∃ θ', θ.unify? true s t = some θ' ∧ Satisfies σ θ' := by
  simp only [satisfies_iff_solves, Term.beq_iff_canonical, Term.canonical_bind]
  exact (acyclic.unifies s t).solves_iff _ acyclic

/-- Unification with the occurs check fails exactly if no map that satisfies the bindings makes the
two terms equal. -/
theorem Acyclic.unify?_eq_none_iff (acyclic : θ.Acyclic) (s t : Term) :
    θ.unify? true s t = none ↔ ¬∃ σ, Satisfies σ θ ∧ (s.bind σ == t.bind σ) = true := by
  refine ⟨?_, fun unsolved => ?_⟩
  · rintro failed ⟨σ, solved⟩
    obtain ⟨θ', found, -⟩ := (acyclic.satisfies_unify?_iff s t σ).mp solved
    rw [failed] at found
    cases found
  · rw [Option.eq_none_iff_forall_ne_some]
    intro θ' found
    have own := (acyclic.of_unify? found).satisfies
    exact unsolved ⟨_, (acyclic.satisfies_unify?_iff s t _).mpr ⟨θ', found, own⟩⟩

/-- Unification with the occurs check fails exactly if no map that satisfies the bindings makes the
two terms equal. A unifier makes them equal, and every such map factors through it. -/
theorem unify?_mostGeneral (s t : Term) (acyclic : θ.Acyclic) :
    (θ.unify? true s t = none ↔
      ¬∃ σ, Satisfies σ θ ∧ (s.bind σ == t.bind σ) = true) ∧
    ∀ θ', θ.unify? true s t = some θ' →
      (θ'.apply s == θ'.apply t) = true ∧
      ∀ σ, Satisfies σ θ → (s.bind σ == t.bind σ) = true →
        ∀ term, ((θ'.apply term).bind σ == term.bind σ) = true := by
  refine ⟨acyclic.unify?_eq_none_iff s t, fun θ' found => ?_⟩
  have acyclic' := acyclic.of_unify? found
  refine ⟨?_, ?_⟩
  · rw [apply_eq_bind, apply_eq_bind]
    exact ((acyclic.satisfies_unify?_iff s t _).mpr ⟨θ', found, acyclic'.satisfies⟩).2
  · intro σ satisfies equal term
    obtain ⟨other, same, solved⟩ :=
      (acyclic.satisfies_unify?_iff s t σ).mp ⟨satisfies, equal⟩
    cases found.symm.trans same
    rw [Term.beq_iff_canonical, Term.canonical_bind, Term.canonical_bind]
    exact (satisfies_iff_solves.mp solved).apply acyclic' term

/-- With `X` bound to `f(Y)`, every map that makes `X` equal to `f(1)` has the number for `Y`. -/
theorem unify?_mostGeneral_bound :
    (empty.insert ⟨"X", []⟩ (.compound "f" [.var ⟨"Y", []⟩])).Acyclic ∧
      ∀ σ, Satisfies σ (empty.insert ⟨"X", []⟩ (.compound "f" [.var ⟨"Y", []⟩])) →
        (σ ⟨"X", []⟩ == .compound "f" [.number (.int 1)]) = true →
        (Term.number (.int 1) == σ ⟨"Y", []⟩) = true := by
  have acyclic := acyclic_single ⟨"X", []⟩ (.compound "f" [.var ⟨"Y", []⟩]) (by decide)
  refine ⟨acyclic, fun σ satisfies equal => ?_⟩
  exact ((unify?_mostGeneral (.var ⟨"X", []⟩) (.compound "f" [.number (.int 1)]) acyclic).2 _
    rfl).2 σ satisfies equal (.var ⟨"Y", []⟩)

end Substitution

end AgentSpeak
