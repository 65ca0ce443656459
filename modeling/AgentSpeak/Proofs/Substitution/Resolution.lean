import AgentSpeak.Proofs.Term.Folding
import AgentSpeak.Proofs.Unification.Matching
import AgentSpeak.Proofs.Unification.Run

/-!
Resolving terms. A resolved term has only unbound variables. What is bound later goes into it as it
goes into the term itself, so it does not matter whether a term is resolved once, when all its
variables are bound, or before that as well.
-/

namespace AgentSpeak.Substitution

variable {allowed : Variable → Prop} {θ later : Substitution} {term result : Term}

theorem Over.resolve (ranges : θ.Over allowed) (own : term.Over allowed)
    (done : θ.resolve term = .ok result) : result.Over allowed :=
  (ranges.apply own).fold done

/-- A term resolved under acyclic bindings has no bound variable. -/
theorem Acyclic.unbound_of_resolve (acyclic : θ.Acyclic) (done : θ.resolve term = .ok result) :
    result.Over fun v => θ.find? v = none :=
  Term.Over.fold (fun _ member => acyclic.unbound_of_mem_apply member) done

/-- A resolved term stays as it is. -/
theorem Acyclic.resolve_resolved (acyclic : θ.Acyclic) (done : θ.resolve term = .ok result) :
    θ.resolve result = .ok result := by
  rw [resolve, apply_of_unbound (acyclic.unbound_of_resolve done)]
  exact Term.fold_fold done

/-- A resolved term counts alike under later bindings. -/
theorem Acyclic.alike_resolved (acyclic : θ.Acyclic) (later_acyclic : later.Acyclic)
    (wider : later.Extends θ) (done : θ.resolve term = .ok result) :
    Term.Alike (later.apply term) (later.apply result) := by
  have alike := Term.alike_bind done fun v => later.apply (.var v)
  rwa [← apply_eq_bind, ← apply_eq_bind, later_acyclic.apply_earlier wider acyclic] at alike

/-- A term has a value exactly if it resolves to this number. Resolving twice is resolving once, and
resolving under some bindings first changes nothing about what a term resolves to under later ones:
both have the same result, or none. -/
theorem resolve_staged (acyclic : θ.Acyclic) (term : Term) :
    (∀ value, θ.evaluate term = .ok value ↔ θ.resolve term = .ok (.number value)) ∧
      (θ.resolve term >>= θ.resolve) = θ.resolve term ∧
      ∀ later : Substitution, later.Acyclic → later.Extends θ → ∀ result,
        θ.resolve term = .ok result →
          (later.resolve result).toOption = (later.resolve term).toOption := by
  refine ⟨fun value => ?_, ?_, ?_⟩
  · rw [acyclic.evaluate_eq]
    exact Term.fold_eq_number_iff.symm
  · cases done : θ.resolve term with
    | error fault => rfl
    | ok result => exact acyclic.resolve_resolved done
  · intro later later_acyclic wider result done
    exact (acyclic.alike_resolved later_acyclic wider done).folded.symm

/-- With `N` bound to `2`, the term `f(N + 1, M * 2)` resolves to `f(3, M * 2)`, and with `M` bound to
`3` both resolve to `f(3, 6)`. -/
theorem resolve_staged_twice :
    let first := empty.insert ⟨"N", []⟩ (.number (.int 2))
    let second := first.insert ⟨"M", []⟩ (.number (.int 3))
    let product : Term := .compound "*" [.var ⟨"M", []⟩, .number (.int 2)]
    let term : Term := .compound "f" [.compound "+" [.var ⟨"N", []⟩, .number (.int 1)], product]
    first.Acyclic ∧ second.Acyclic ∧ second.Extends first ∧
      first.resolve term = .ok (.compound "f" [.number (.int 3), product]) ∧
      (second.resolve (.compound "f" [.number (.int 3), product])).toOption =
        some (.compound "f" [.number (.int 3), .number (.int 6)]) := by
  intro first second product term
  have acyclic : first.Acyclic := acyclic_single _ _ (by decide)
  have later_acyclic : second.Acyclic := acyclic.insert fun c member => nomatch member
  have wider : second.Extends first := extends_insert (by decide) _
  have staged := (resolve_staged acyclic term).2.2 second later_acyclic wider _ rfl
  exact ⟨acyclic, later_acyclic, wider, rfl, staged⟩

end AgentSpeak.Substitution
