import AgentSpeak.Proofs.Substitution.Traversal
import AgentSpeak.Proofs.Unification.Matching
import AgentSpeak.Proofs.Unification.Run

/-!
Bindings restricted to the variables that somebody asked for. A variable that was bound in several
steps is shown with its full value, so the restricted bindings say the same about terms over these
variables as all bindings do, and nothing in them is left to follow.
-/

namespace AgentSpeak.Substitution

variable {θ : Substitution} {wanted : List Variable} {v : Variable} {term value : Term}

/-- A list that binds no variable to two terms binds what it lists. -/
theorem find?_ofList_eq_some_iff {bindings : List (Variable × Term)}
    (single : ∀ v one other, (v, one) ∈ bindings → (v, other) ∈ bindings → one = other) :
    (ofList bindings).find? v = some value ↔ (v, value) ∈ bindings := by
  induction bindings using List.reverseRecOn with
  | nil => simp [ofList]
  | append_singleton bindings last ih =>
    have last_added : ofList (bindings ++ [last]) = (ofList bindings).insert last.1 last.2 := by
      simp [ofList]
    have earlier := ih fun v one other first second =>
      single v one other (List.mem_append_left _ first) (List.mem_append_left _ second)
    rw [last_added, find?_insert, List.mem_append, List.mem_singleton]
    split
    next same =>
      have listed : (v, last.2) ∈ bindings ++ [last] := by simp [same]
      constructor
      · intro found
        exact .inr (Prod.ext same (Option.some.inj found).symm)
      · intro member
        exact congrArg some (single v _ _ listed (List.mem_append.mpr (by simpa using member)))
    next other =>
      rw [earlier]
      exact (or_iff_left fun same => other (congrArg Prod.fst same)).symm

/-- A variable has itself for its full value exactly if it is unbound. -/
theorem Acyclic.apply_var_eq_iff (acyclic : θ.Acyclic) :
    θ.apply (.var v) = .var v ↔ θ.find? v = none :=
  ⟨fun same => acyclic.unbound_of_mem_apply (by rw [same]; simp), apply_unbound⟩

/-- What is shown of a variable that was asked for is its full value, unless it is unbound. -/
theorem Acyclic.mem_restrict_iff (acyclic : θ.Acyclic) :
    (v, value) ∈ θ.restrict wanted ↔
      v ∈ wanted ∧ θ.find? v ≠ none ∧ value = θ.apply (.var v) := by
  have kept (w : Variable) : (if θ.apply (.var w) == .var w then none
      else some (w, θ.apply (.var w))) = some (v, value) ↔
        w = v ∧ θ.find? v ≠ none ∧ value = θ.apply (.var v) := by
    split
    next same =>
      have free := acyclic.apply_var_eq_iff.mp (Term.beq_var_iff.mp same)
      refine ⟨nofun, ?_⟩
      rintro ⟨rfl, bound, -⟩
      exact absurd free bound
    next differs =>
      have bound : θ.find? w ≠ none := fun free =>
        differs (Term.beq_var_iff.mpr (apply_unbound free))
      rw [Option.some.injEq, Prod.mk.injEq]
      constructor
      · rintro ⟨rfl, rfl⟩
        exact ⟨rfl, bound, rfl⟩
      · rintro ⟨rfl, -, rfl⟩
        exact ⟨rfl, rfl⟩
  simp only [restrict, List.mem_filterMap, List.mem_eraseDups, kept]
  constructor
  · rintro ⟨w, member, rfl, rest⟩
    exact ⟨member, rest⟩
  · rintro ⟨member, rest⟩
    exact ⟨v, member, rfl, rest⟩

/-- The restricted bindings as bindings again. -/
def shown (θ : Substitution) (wanted : List Variable) : Substitution :=
  ofList (θ.restrict wanted)

theorem Acyclic.find?_shown_eq_some_iff (acyclic : θ.Acyclic) :
    (θ.shown wanted).find? v = some value ↔
      v ∈ wanted ∧ θ.find? v ≠ none ∧ value = θ.apply (.var v) := by
  rw [shown, find?_ofList_eq_some_iff, acyclic.mem_restrict_iff]
  intro w one other first second
  rw [(acyclic.mem_restrict_iff.mp first).2.2, (acyclic.mem_restrict_iff.mp second).2.2]

/-- Nothing is bound by restricting. -/
theorem Acyclic.find?_shown_unbound (acyclic : θ.Acyclic) (free : θ.find? v = none) :
    (θ.shown wanted).find? v = none := by
  rw [Option.eq_none_iff_forall_not_mem]
  exact fun value found => (acyclic.find?_shown_eq_some_iff.mp found).2.1 free

/-- No chain of bindings is left: the values that are shown have unbound variables only. -/
theorem Acyclic.shown (acyclic : θ.Acyclic) (wanted : List Variable) :
    (θ.shown wanted).Acyclic := by
  intro v cycle
  obtain ⟨_, ⟨own, found, _⟩, _⟩ := Relation.TransGen.head'_iff.mp cycle
  obtain ⟨_, _, ⟨value, found', member⟩⟩ := Relation.TransGen.tail'_iff.mp cycle
  have bound := (acyclic.find?_shown_eq_some_iff.mp found).2.1
  have full := (acyclic.find?_shown_eq_some_iff.mp found').2.2
  exact bound (acyclic.unbound_of_mem_apply (full ▸ member))

theorem Acyclic.apply_shown (acyclic : θ.Acyclic) (known : ∀ v ∈ term.vars, v ∈ wanted) :
    (θ.shown wanted).apply term = θ.apply term := by
  rw [apply_eq_bind, apply_eq_bind θ]
  refine Term.bind_congr fun v member => ?_
  by_cases free : θ.find? v = none
  · rw [apply_unbound free, apply_unbound (acyclic.find?_shown_unbound free)]
  · have bound := acyclic.find?_shown_eq_some_iff.mpr ⟨known v member, free, rfl⟩
    rw [(acyclic.shown wanted).apply_bound bound]
    exact apply_of_unbound fun w occurs =>
      acyclic.find?_shown_unbound (acyclic.unbound_of_mem_apply occurs)

/-- Substituting the restricted bindings in a term over the variables asked for ends, with what
substituting all bindings gives. The values shown have no bound variable, and a variable that was
asked for is left out exactly if it is unbound, which is to say that it stands for itself. -/
theorem restrict_faithful (acyclic : θ.Acyclic) (wanted : List Variable) :
    (∀ term : Term, (∀ v ∈ term.vars, v ∈ wanted) →
      (ofList (θ.restrict wanted)).apply term = θ.apply term ∧
        Resolves (ofList (θ.restrict wanted)) term (θ.apply term)) ∧
      (∀ binding ∈ θ.restrict wanted, ∀ v ∈ binding.2.vars, θ.find? v = none) ∧
      ∀ v ∈ wanted, (v ∉ (θ.restrict wanted).map Prod.fst ↔ θ.find? v = none) ∧
        (θ.find? v = none ↔ θ.apply (.var v) = .var v) := by
  refine ⟨fun term known => ?_, ?_, fun v asked => ⟨?_, acyclic.apply_var_eq_iff.symm⟩⟩
  · have same := acyclic.apply_shown known
    exact ⟨same, same ▸ (acyclic.shown wanted).resolves term⟩
  · rintro ⟨w, value⟩ member v occurs
    obtain ⟨-, -, rfl⟩ := acyclic.mem_restrict_iff.mp member
    exact acyclic.unbound_of_mem_apply occurs
  · have listed : v ∈ (θ.restrict wanted).map Prod.fst ↔ θ.find? v ≠ none := by
      simp [acyclic.mem_restrict_iff, asked]
    rw [listed, not_not]

/-- A variable that no value mentions can be bound without making a cycle. -/
theorem Acyclic.insert_unmentioned (acyclic : θ.Acyclic)
    (unmentioned : ∀ binding ∈ θ.bindings, v ∉ binding.2.vars) (apart : v ∉ term.vars) :
    (θ.insert v term).Acyclic := by
  refine acyclic.insert fun c member path => ?_
  rcases Relation.ReflTransGen.cases_tail path with same | ⟨w, -, value, found, occurs⟩
  · exact apart (same ▸ member)
  · exact unmentioned (w, value) (mem_of_find? found) occurs

/-- `X` is bound to `f(X#1)`, this to `Y` and `Y` to `Z`. Asked for `X`, `Y` and `W`, one is shown
`f(Z)` for `X` and `Z` for `Y`, and nothing for `W`. -/
theorem restrict_faithful_chain :
    let θ := ((empty.insert ⟨"Y", []⟩ (.var ⟨"Z", []⟩)).insert ⟨"X", ["1"]⟩
      (.var ⟨"Y", []⟩)).insert ⟨"X", []⟩ (.compound "f" [.var ⟨"X", ["1"]⟩])
    let wanted : List Variable := [⟨"X", []⟩, ⟨"Y", []⟩, ⟨"W", []⟩]
    let term : Term := .compound "p" [.var ⟨"X", []⟩, .var ⟨"Y", []⟩, .var ⟨"W", []⟩]
    θ.Acyclic ∧ (∀ v ∈ term.vars, v ∈ wanted) ∧
      θ.restrict wanted = [(⟨"X", []⟩, .compound "f" [.var ⟨"Z", []⟩]),
        (⟨"Y", []⟩, .var ⟨"Z", []⟩)] ∧
      (ofList (θ.restrict wanted)).apply term =
        .compound "p" [.compound "f" [.var ⟨"Z", []⟩], .var ⟨"Z", []⟩, .var ⟨"W", []⟩] := by
  intro θ wanted term
  have acyclic : θ.Acyclic :=
    ((acyclic_single _ _ (by decide)).insert_unmentioned (by decide) (by decide)).insert_unmentioned
      (by decide) (by decide)
  have known : ∀ v ∈ term.vars, v ∈ wanted := by decide
  exact ⟨acyclic, known, rfl, ((restrict_faithful acyclic wanted).1 term known).1⟩

end AgentSpeak.Substitution
