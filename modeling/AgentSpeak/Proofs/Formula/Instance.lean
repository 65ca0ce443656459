import AgentSpeak.Formula.Basic
import AgentSpeak.Proofs.Term.Instance

namespace AgentSpeak.Formula

variable {f g : Variable → Term} {formula : Formula} {allowed wider : Variable → Prop}

/-- Every term put for its variables. -/
def bind (f : Variable → Term) : Formula → Formula
  | .literal term => .literal (term.bind f)
  | .negation formula => .negation (formula.bind f)
  | .conjunction left right => .conjunction (left.bind f) (right.bind f)
  | .disjunction left right => .disjunction (left.bind f) (right.bind f)
  | .comparison relation left right => .comparison relation (left.bind f) (right.bind f)

theorem mark_eq_bind (marks : List String) (formula : Formula) :
    formula.mark marks = formula.bind fun v => .var (v.mark marks) := by
  induction formula with
  | literal term => rfl
  | negation formula ih => rw [mark, ih, bind]
  | conjunction left right leftIh rightIh => rw [mark, leftIh, rightIh, bind]
  | disjunction left right leftIh rightIh => rw [mark, leftIh, rightIh, bind]
  | comparison relation left right => rfl

theorem bind_bind (f g : Variable → Term) (formula : Formula) :
    (formula.bind f).bind g = formula.bind fun v => (f v).bind g := by
  induction formula with
  | literal term => simp only [bind, Term.bind_bind]
  | negation formula ih => simp only [bind, ih]
  | conjunction left right leftIh rightIh => simp only [bind, leftIh, rightIh]
  | disjunction left right leftIh rightIh => simp only [bind, leftIh, rightIh]
  | comparison relation left right => simp only [bind, Term.bind_bind]

theorem bind_congr (same : ∀ v ∈ formula.vars, f v = g v) : formula.bind f = formula.bind g := by
  induction formula with
  | literal term => rw [bind, bind, Term.bind_congr same]
  | negation formula ih => rw [bind, bind, ih same]
  | conjunction left right leftIh rightIh | disjunction left right leftIh rightIh =>
    rw [bind, bind, leftIh fun v member => same v (List.mem_append_left _ member),
      rightIh fun v member => same v (List.mem_append_right _ member)]
  | comparison relation left right =>
    rw [bind, bind, Term.bind_congr fun v member => same v (List.mem_append_left _ member),
      Term.bind_congr fun v member => same v (List.mem_append_right _ member)]

theorem mem_vars_bind {v : Variable} :
    v ∈ (formula.bind f).vars ↔ ∃ w ∈ formula.vars, v ∈ (f w).vars := by
  induction formula with
  | literal term => exact Term.mem_vars_bind
  | negation formula ih => exact ih
  | conjunction left right leftIh rightIh | disjunction left right leftIh rightIh =>
    simp only [bind, vars, List.mem_append, leftIh, rightIh, or_and_right, exists_or]
  | comparison relation left right =>
    simp only [bind, vars, List.mem_append, Term.mem_vars_bind, or_and_right, exists_or]

/-- All variables of a formula are allowed. -/
def Over (allowed : Variable → Prop) (formula : Formula) : Prop :=
  ∀ v ∈ formula.vars, allowed v

theorem over_mark {marks : List String}
    (each : ∀ v ∈ formula.vars, allowed (v.mark marks)) : (formula.mark marks).Over allowed := by
  intro v occurs
  rw [mark_eq_bind] at occurs
  obtain ⟨w, inside, reached⟩ := mem_vars_bind.mp occurs
  rw [Term.vars_var, List.mem_singleton] at reached
  exact reached ▸ each w inside

end AgentSpeak.Formula
