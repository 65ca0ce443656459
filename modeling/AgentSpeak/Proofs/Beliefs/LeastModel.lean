import AgentSpeak.Proofs.Beliefs.Filing
import AgentSpeak.Proofs.Formula.Instance
import AgentSpeak.Proofs.Term.Equality

namespace AgentSpeak

namespace Formula

variable {formula : Formula} {holds wider : Term → Prop}

/-- Built by conjunction and disjunction from literals without floating-point numbers. -/
def isDefinite : Formula → Bool
  | .literal term => term.indicator?.isSome && term.isExact
  | .conjunction left right | .disjunction left right => left.isDefinite && right.isDefinite
  | _ => false

theorem isDefinite_mark (marks : List String) (definite : formula.isDefinite = true) :
    (formula.mark marks).isDefinite = true := by
  induction formula with
  | literal term =>
    simp only [isDefinite, Bool.and_eq_true, Option.isSome_iff_exists] at definite
    obtain ⟨⟨key, filed⟩, exact⟩ := definite
    simp only [mark, isDefinite, Bool.and_eq_true]
    refine ⟨?_, Term.isExact_bind exact fun v _ => rfl⟩
    rw [Term.mark, Term.indicator?_bind filed, Option.isSome_some]
  | conjunction left right leftIh rightIh | disjunction left right leftIh rightIh =>
    simp only [isDefinite, mark, Bool.and_eq_true] at definite ⊢
    exact ⟨leftIh definite.1, rightIh definite.2⟩
  | negation formula ih => cases definite
  | comparison relation left right => cases definite

/-- The formulas that are true where exactly the given literals hold. Neither a negation nor a
relation is among them. -/
inductive HoldsIn (holds : Term → Prop) : Formula → Prop where
  | literal (true_ : holds term) : HoldsIn holds (.literal term)
  | conjunction (left : HoldsIn holds first) (right : HoldsIn holds second) :
      HoldsIn holds (.conjunction first second)
  | left (side : HoldsIn holds first) : HoldsIn holds (.disjunction first second)
  | right (side : HoldsIn holds second) : HoldsIn holds (.disjunction first second)

theorem HoldsIn.mono (true_ : formula.HoldsIn holds) (more : ∀ term, holds term → wider term) :
    formula.HoldsIn wider := by
  induction true_ with
  | literal own => exact .literal (more _ own)
  | conjunction left right leftIh rightIh => exact .conjunction leftIh rightIh
  | left side ih => exact .left ih
  | right side ih => exact .right ih

end Formula

namespace BeliefBase

/-- A map of every variable to a ground term. -/
def Grounds (σ : Variable → Term) : Prop :=
  ∀ v, (σ v).isGround = true

/-- A set of literals that holds `true` and the facts, and agrees with all ground instances of the
rules. -/
structure IsModel (base : BeliefBase) (holds : Term → Prop) : Prop where
  truth : holds Term.truth
  facts : ∀ fact ∈ base.facts, holds fact
  rules : ∀ rule ∈ base.rules, ∀ σ, Grounds σ →
    (rule.body.bind σ).HoldsIn holds → holds (rule.head.bind σ)

/-- The literals that hold in every model. -/
def LeastModel (base : BeliefBase) (term : Term) : Prop :=
  ∀ holds, base.IsModel holds → holds term

variable {base : BeliefBase} {term : Term}

theorem leastModel_isModel (base : BeliefBase) : base.IsModel base.LeastModel where
  truth := fun _ model => model.truth
  facts := fun fact member _ model => model.facts fact member
  rules := fun rule member σ grounds body _ model =>
    model.rules rule member σ grounds (body.mono fun _ least => least _ model)

/-- What holds in the least model holds for a reason that holds there. -/
theorem leastModel_cases (least : base.LeastModel term) :
    term = Term.truth ∨ term ∈ base.facts ∨ ∃ rule ∈ base.rules, ∃ σ, Grounds σ ∧
      (rule.body.bind σ).HoldsIn base.LeastModel ∧ term = rule.head.bind σ := by
  refine least (fun term => term = Term.truth ∨ term ∈ base.facts ∨
    ∃ rule ∈ base.rules, ∃ σ, Grounds σ ∧ (rule.body.bind σ).HoldsIn base.LeastModel ∧
      term = rule.head.bind σ) ?_
  refine ⟨.inl rfl, fun fact member => .inr (.inl member), ?_⟩
  intro rule member σ grounds body
  refine .inr (.inr ⟨rule, member, σ, grounds, body.mono ?_, rfl⟩)
  rintro other (same | fact | ⟨earlier, known, τ, groundsτ, earlierBody, same⟩)
  · exact same ▸ base.leastModel_isModel.truth
  · exact base.leastModel_isModel.facts other fact
  · exact same ▸ base.leastModel_isModel.rules earlier known τ groundsτ earlierBody

/-- Only a fact or the head of a rule that is `false` itself could make it hold. -/
theorem not_leastModel_falsity (ordered : base.Ordered)
    (facts : ∀ fact ∈ base.facts, fact ≠ Term.falsity)
    (rules : ∀ rule ∈ base.rules, rule.head ≠ Term.falsity) : ¬base.LeastModel Term.falsity := by
  intro least
  rcases leastModel_cases least with same | fact | ⟨rule, member, σ, -, -, same⟩
  · simp [Term.truth, Term.falsity] at same
  · exact facts _ fact rfl
  · obtain ⟨key, filed⟩ := ordered.rules.exists_key member
    exact rules rule member (Term.eq_atom_of_bind (by rw [filed, Option.isSome_some]) same.symm)

end BeliefBase

end AgentSpeak
