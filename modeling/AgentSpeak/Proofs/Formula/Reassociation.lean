import AgentSpeak.Beliefs.Solver
import AgentSpeak.Formula.Printer
import AgentSpeak.Proofs.Formula.Legible

namespace AgentSpeak

namespace Formula

/-- A conjunction of two formulas of which the second one is regrouped. -/
def joinConjunction (left : Formula) : Formula → Formula
  | .conjunction first second => .conjunction (joinConjunction left first) second
  | right => .conjunction left right

/-- A disjunction of two formulas of which the second one is regrouped. -/
def joinDisjunction (left : Formula) : Formula → Formula
  | .disjunction first second => .disjunction (joinDisjunction left first) second
  | right => .disjunction left right

/-- A formula with nested conjunctions and nested disjunctions regrouped to the left. -/
def reassociate : Formula → Formula
  | .literal term => .literal term
  | .negation formula => .negation formula.reassociate
  | .conjunction left right => joinConjunction left.reassociate right.reassociate
  | .disjunction left right => joinDisjunction left.reassociate right.reassociate
  | .comparison relation left right => .comparison relation left right

def isConjunction : Formula → Bool
  | .conjunction .. => true
  | _ => false

/-- No conjunction stands on the right of a conjunction and no disjunction on the right of a
disjunction. -/
inductive LeftNested : Formula → Prop where
  | literal (term : Term) : LeftNested (.literal term)
  | negation (formula : Formula) (nested : LeftNested formula) : LeftNested (.negation formula)
  | conjunction (left right : Formula) (first : LeftNested left) (second : LeftNested right)
      (single : right.isConjunction = false) : LeftNested (.conjunction left right)
  | disjunction (left right : Formula) (first : LeftNested left) (second : LeftNested right)
      (single : right.isDisjunction = false) : LeftNested (.disjunction left right)
  | comparison (relation : Relation) (left right : Term) :
      LeftNested (.comparison relation left right)

variable {left right formula : Formula}

theorem joinConjunction_single (single : right.isConjunction = false) :
    joinConjunction left right = .conjunction left right := by
  cases right with
  | conjunction a b => cases single
  | _ => rfl

theorem joinDisjunction_single (single : right.isDisjunction = false) :
    joinDisjunction left right = .disjunction left right := by
  cases right with
  | disjunction a b => cases single
  | _ => rfl

@[simp] theorem isConjunction_reassociate (formula : Formula) :
    formula.reassociate.isConjunction = formula.isConjunction := by
  cases formula with
  | conjunction left right => rw [reassociate]; cases right.reassociate <;> rfl
  | disjunction left right => rw [reassociate]; cases right.reassociate <;> rfl
  | _ => rfl

@[simp] theorem isDisjunction_reassociate (formula : Formula) :
    formula.reassociate.isDisjunction = formula.isDisjunction := by
  cases formula with
  | conjunction left right => rw [reassociate]; cases right.reassociate <;> rfl
  | disjunction left right => rw [reassociate]; cases right.reassociate <;> rfl
  | _ => rfl

@[simp] theorem isConjunction_rename (π : Variable → Variable) (formula : Formula) :
    (formula.rename π).isConjunction = formula.isConjunction := by
  cases formula <;> rfl

@[simp] theorem isDisjunction_rename (π : Variable → Variable) (formula : Formula) :
    (formula.rename π).isDisjunction = formula.isDisjunction := by
  cases formula <;> rfl

theorem LeftNested.joinConjunction (first : left.LeftNested) (second : right.LeftNested) :
    (joinConjunction left right).LeftNested := by
  induction second with
  | conjunction a b nested nested' single ih => exact .conjunction _ b ih nested' single
  | literal term => exact .conjunction left _ first (.literal term) rfl
  | negation formula nested => exact .conjunction left _ first (.negation formula nested) rfl
  | disjunction a b nested nested' single =>
    exact .conjunction left _ first (.disjunction a b nested nested' single) rfl
  | comparison relation s t => exact .conjunction left _ first (.comparison relation s t) rfl

theorem LeftNested.joinDisjunction (first : left.LeftNested) (second : right.LeftNested) :
    (joinDisjunction left right).LeftNested := by
  induction second with
  | disjunction a b nested nested' single ih => exact .disjunction _ b ih nested' single
  | literal term => exact .disjunction left _ first (.literal term) rfl
  | negation formula nested => exact .disjunction left _ first (.negation formula nested) rfl
  | conjunction a b nested nested' single =>
    exact .disjunction left _ first (.conjunction a b nested nested' single) rfl
  | comparison relation s t => exact .disjunction left _ first (.comparison relation s t) rfl

theorem leftNested_reassociate (formula : Formula) : formula.reassociate.LeftNested := by
  induction formula with
  | literal term => exact .literal term
  | negation formula ih => exact .negation _ ih
  | conjunction left right ih ih' => exact ih.joinConjunction ih'
  | disjunction left right ih ih' => exact ih.joinDisjunction ih'
  | comparison relation left right => exact .comparison relation left right

/-- A formula that is grouped to the left stays as it is. -/
theorem LeftNested.reassociate_eq (nested : formula.LeftNested) :
    formula.reassociate = formula := by
  induction nested with
  | literal term => rfl
  | negation formula nested ih => rw [reassociate, ih]
  | conjunction left right first second single ih ih' =>
    rw [reassociate, ih, ih', joinConjunction_single single]
  | disjunction left right first second single ih ih' =>
    rw [reassociate, ih, ih', joinDisjunction_single single]
  | comparison relation left right => rfl

theorem terms_joinConjunction (left right : Formula) :
    (joinConjunction left right).terms = left.terms ++ right.terms := by
  induction right with
  | conjunction a b ih => rw [joinConjunction, terms, ih, terms, List.append_assoc]
  | _ => rfl

theorem terms_joinDisjunction (left right : Formula) :
    (joinDisjunction left right).terms = left.terms ++ right.terms := by
  induction right with
  | disjunction a b ih => rw [joinDisjunction, terms, ih, terms, List.append_assoc]
  | _ => rfl

theorem terms_reassociate (formula : Formula) : formula.reassociate.terms = formula.terms := by
  induction formula with
  | literal term => rfl
  | negation formula ih => exact ih
  | conjunction left right ih ih' => rw [reassociate, terms_joinConjunction, ih, ih', terms]
  | disjunction left right ih ih' => rw [reassociate, terms_joinDisjunction, ih, ih', terms]
  | comparison relation left right => rfl

theorem vars_reassociate (formula : Formula) : formula.reassociate.vars = formula.vars := by
  rw [vars_eq_flatMap, terms_reassociate, vars_eq_flatMap]

theorem joinConjunction_assoc (first second third : Formula) :
    joinConjunction first (joinConjunction second third) =
      joinConjunction (joinConjunction first second) third := by
  induction third with
  | conjunction a b ih => rw [joinConjunction, joinConjunction, joinConjunction, ih]
  | _ => rfl

theorem joinDisjunction_assoc (first second third : Formula) :
    joinDisjunction first (joinDisjunction second third) =
      joinDisjunction (joinDisjunction first second) third := by
  induction third with
  | disjunction a b ih => rw [joinDisjunction, joinDisjunction, joinDisjunction, ih]
  | _ => rfl

theorem rename_joinConjunction (π : Variable → Variable) (left right : Formula) :
    (joinConjunction left right).rename π = joinConjunction (left.rename π) (right.rename π) := by
  induction right with
  | conjunction a b ih =>
    show Formula.conjunction ((joinConjunction left a).rename π) (b.rename π) = _
    rw [ih]
    rfl
  | _ => rfl

theorem rename_joinDisjunction (π : Variable → Variable) (left right : Formula) :
    (joinDisjunction left right).rename π = joinDisjunction (left.rename π) (right.rename π) := by
  induction right with
  | disjunction a b ih =>
    show Formula.disjunction ((joinDisjunction left a).rename π) (b.rename π) = _
    rw [ih]
    rfl
  | _ => rfl

end Formula

namespace Search

theorem append_assoc (first : Search) (second third : Unit → Search) :
    (first.append second).append third = first.append fun _ => (second ()).append third := by
  induction first with
  | done => rfl
  | failed fault => rfl
  | answer θ rest ih => exact congrArg (answer θ) (funext fun _ => ih ())
  | facts key next ih => exact congrArg (facts key) (funext ih)
  | rules key next ih => exact congrArg (rules key) (funext ih)
  | fresh next ih => exact congrArg fresh (funext ih)

theorem append_bind (first : Search) (second : Unit → Search) (next : Substitution → Search) :
    (first.append second).bind next = (first.bind next).append fun _ => (second ()).bind next := by
  induction first with
  | done => rfl
  | failed fault => rfl
  | answer θ rest ih => rw [append, bind, bind, append_assoc, funext ih]
  | facts key more ih => exact congrArg (facts key) (funext ih)
  | rules key more ih => exact congrArg (rules key) (funext ih)
  | fresh more ih => exact congrArg fresh (funext ih)

theorem bind_assoc (first : Search) (second third : Substitution → Search) :
    (first.bind second).bind third = first.bind fun θ => (second θ).bind third := by
  induction first with
  | done => rfl
  | failed fault => rfl
  | answer θ rest ih => rw [bind, append_bind, bind, funext ih]
  | facts key more ih => exact congrArg (facts key) (funext ih)
  | rules key more ih => exact congrArg (rules key) (funext ih)
  | fresh more ih => exact congrArg fresh (funext ih)

section Solving

variable (occursCheck : Bool) (ask : Term → Substitution → Search)

theorem solvingWith_joinConjunction (left right : Formula) (θ : Substitution) :
    solvingWith occursCheck ask (left.joinConjunction right) θ =
      (solvingWith occursCheck ask left θ).bind (solvingWith occursCheck ask right) := by
  induction right with
  | conjunction a b ih =>
    rw [Formula.joinConjunction, solvingWith, ih, bind_assoc]
    rfl
  | _ => rfl

theorem solvingWith_joinDisjunction (left right : Formula) (θ : Substitution) :
    solvingWith occursCheck ask (left.joinDisjunction right) θ =
      (solvingWith occursCheck ask left θ).append fun _ => solvingWith occursCheck ask right θ := by
  induction right with
  | disjunction a b ih =>
    rw [Formula.joinDisjunction, solvingWith, ih, append_assoc]
    rfl
  | _ => rfl

/-- Regrouping a formula does not change the search for its answers. -/
theorem solvingWith_reassociate (formula : Formula) (θ : Substitution) :
    solvingWith occursCheck ask formula.reassociate θ =
      solvingWith occursCheck ask formula θ := by
  induction formula generalizing θ with
  | literal term => rfl
  | negation formula ih => rw [Formula.reassociate, solvingWith, ih, solvingWith]
  | conjunction left right ih ih' =>
    rw [Formula.reassociate, solvingWith_joinConjunction, ih, funext ih', solvingWith]
  | disjunction left right ih ih' =>
    rw [Formula.reassociate, solvingWith_joinDisjunction, ih, ih', solvingWith]
  | comparison relation left right => rfl

end Solving

end Search

end AgentSpeak
