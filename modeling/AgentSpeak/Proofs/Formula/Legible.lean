import AgentSpeak.Formula.Parser
import AgentSpeak.Proofs.Formula.Instance
import AgentSpeak.Proofs.Term.Legible

namespace AgentSpeak.Formula

/-- The literals and the sides of the relations of a formula, in order. -/
def terms : Formula → List Term
  | .literal term => [term]
  | .negation formula => formula.terms
  | .conjunction left right => left.terms ++ right.terms
  | .disjunction left right => left.terms ++ right.terms
  | .comparison _ left right => [left, right]

/-- A formula with other names for its variables. -/
def rename (π : Variable → Variable) : Formula → Formula :=
  bind fun v => .var (π v)

/-- A formula that the grammar can give. -/
inductive Legible : Formula → Prop where
  | literal (term : Term) (legible : term.Legible) (plain : term.isPlainLiteral = true) :
      Legible (.literal term)
  | negation (formula : Formula) (legible : Legible formula) : Legible (.negation formula)
  | conjunction (left right : Formula) (first : Legible left) (second : Legible right) :
      Legible (.conjunction left right)
  | disjunction (left right : Formula) (first : Legible left) (second : Legible right) :
      Legible (.disjunction left right)
  | comparison (relation : Relation) (left right : Term)
      (known : ∃ kind, relation? kind = some relation) (first : left.Legible)
      (second : right.Legible) : Legible (.comparison relation left right)

theorem vars_eq_flatMap (formula : Formula) : formula.vars = formula.terms.flatMap Term.vars := by
  induction formula with
  | literal term => simp [vars, terms]
  | negation formula ih => exact ih
  | conjunction left right leftIh rightIh | disjunction left right leftIh rightIh =>
    rw [vars, terms, leftIh, rightIh, List.flatMap_append]
  | comparison relation left right => simp [vars, terms]

theorem rename_congr {π ρ : Variable → Variable} {formula : Formula}
    (same : ∀ v ∈ formula.vars, π v = ρ v) : formula.rename π = formula.rename ρ :=
  bind_congr fun v member => by rw [same v member]

theorem rename_self {π : Variable → Variable} {formula : Formula}
    (fixed : ∀ v ∈ formula.vars, π v = v) : formula.rename π = formula := by
  induction formula with
  | literal term => exact congrArg _ (Term.rename_self fixed)
  | negation formula ih => exact congrArg _ (ih fixed)
  | conjunction left right ih ih' | disjunction left right ih ih' =>
    exact congrArg₂ _ (ih fun v member => fixed v (List.mem_append_left _ member))
      (ih' fun v member => fixed v (List.mem_append_right _ member))
  | comparison relation left right =>
    exact congrArg₂ _ (Term.rename_self fun v member => fixed v (List.mem_append_left _ member))
      (Term.rename_self fun v member => fixed v (List.mem_append_right _ member))

theorem rename_id (formula : Formula) : formula.rename id = formula :=
  rename_self fun _ _ => rfl

theorem rename_rename (π ρ : Variable → Variable) (formula : Formula) :
    (formula.rename π).rename ρ = formula.rename fun v => ρ (π v) := by
  rw [rename, rename, bind_bind]
  exact bind_congr fun v _ => Term.bind_var _ _

theorem rename_injective {π : Variable → Variable} (one : Function.Injective π) :
    Function.Injective (rename π) := by
  have : Nonempty Variable := ⟨.wildcard 0⟩
  obtain ⟨ρ, back⟩ := one.hasLeftInverse
  have inverse : ∀ formula : Formula, (formula.rename π).rename ρ = formula := fun formula => by
    rw [rename_rename]
    exact rename_self fun v _ => back v
  exact Function.LeftInverse.injective inverse

@[simp] theorem vars_rename (π : Variable → Variable) (formula : Formula) :
    (formula.rename π).vars = formula.vars.map π := by
  induction formula with
  | literal term => exact Term.vars_rename π term
  | negation formula ih => exact ih
  | conjunction left right ih ih' | disjunction left right ih ih' =>
    rw [vars, List.map_append, ← ih, ← ih']
    rfl
  | comparison relation left right =>
    rw [vars, List.map_append, ← Term.vars_rename, ← Term.vars_rename]
    rfl

theorem Legible.terms {formula : Formula} (legible : formula.Legible) :
    ∀ term ∈ formula.terms, term.Legible := by
  induction legible with
  | literal term legible plain => simpa [Formula.terms] using legible
  | negation formula legible ih => exact ih
  | conjunction left right first second ih ih' | disjunction left right first second ih ih' =>
    intro term member
    exact (List.mem_append.mp member).elim (ih term) (ih' term)
  | comparison relation left right known first second =>
    simpa [Formula.terms] using ⟨first, second⟩

/-- The second formula is the first one, read after some more wildcards. The first one was read
while the count of wildcards went from one bound to another. -/
structure Copied (shift low high : Nat) (formula copy : Formula) : Prop where
  same : copy = formula.rename (.renumber (· + shift))
  legible : formula.Legible
  numbered : Numbered low high formula.vars

section Copies

variable {shift low middle high : Nat} {formula copy left right left' right' : Formula}
  {s t s' t' : Term}

theorem Copied.above (copied : Copied shift middle high formula copy) (lower : low ≤ middle) :
    Copied shift low high formula copy :=
  ⟨copied.same, copied.legible, copied.numbered.above lower⟩

theorem copied_literal (copied : Term.Copied shift low high s s')
    (plain : s.isPlainLiteral = true) :
    Copied shift low high (.literal s) (.literal s') :=
  ⟨congrArg _ copied.same, .literal s copied.legible plain, copied.numbered⟩

theorem copied_comparison {relation : Relation} (known : ∃ kind, relation? kind = some relation)
    (first : Term.Copied shift low middle s s') (second : Term.Copied shift middle high t t')
    (lower : low ≤ middle) (upper : middle ≤ high) :
    Copied shift low high (.comparison relation s t) (.comparison relation s' t') := by
  refine ⟨?_, .comparison relation s t known first.legible second.legible,
    first.numbered.append second.numbered lower upper⟩
  rw [first.same, second.same]
  rfl

theorem Copied.negation (copied : Copied shift low high formula copy) :
    Copied shift low high (.negation formula) (.negation copy) :=
  ⟨congrArg _ copied.same, .negation formula copied.legible, copied.numbered⟩

theorem Copied.conjunction (first : Copied shift low middle left left')
    (second : Copied shift middle high right right') (lower : low ≤ middle)
    (upper : middle ≤ high) :
    Copied shift low high (.conjunction left right) (.conjunction left' right') := by
  refine ⟨?_, .conjunction left right first.legible second.legible,
    first.numbered.append second.numbered lower upper⟩
  rw [first.same, second.same]
  rfl

theorem Copied.disjunction (first : Copied shift low middle left left')
    (second : Copied shift middle high right right') (lower : low ≤ middle)
    (upper : middle ≤ high) :
    Copied shift low high (.disjunction left right) (.disjunction left' right') := by
  refine ⟨?_, .disjunction left right first.legible second.legible,
    first.numbered.append second.numbered lower upper⟩
  rw [first.same, second.same]
  rfl

end Copies

end AgentSpeak.Formula
