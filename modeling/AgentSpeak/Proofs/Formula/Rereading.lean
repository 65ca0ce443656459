import AgentSpeak.Proofs.Formula.Operand
import AgentSpeak.Proofs.Source.Phrase

namespace AgentSpeak.Formula

open Source (Parser Kind Token Cursor Position Tidy scan edge)
open Source.Parser
open Connective (conjunctive disjunctive linked)

/-- A formula is read back regrouped wherever its text stands: as an operand of a conjunction or a
negation, as part of a conjunction, and as part of a disjunction. -/
structure Reread (formula : Formula) : Prop where
  operand : ∀ depth, ReadsNegated depth
    (parenthesizedIf formula.isCompound formula.render).toList formula.reassociate
  conjunct : ∀ depth, conjunctive.Joined depth (negated depth) (fun _ => True)
    (parenthesizedIf formula.isDisjunction formula.render).toList formula.reassociate
  disjunct : ∀ depth, disjunctive.Joined depth (chain conjunction? (negated depth))
    (fun kind => True ∧ conjunction? kind = none) formula.render.toList formula.reassociate

variable {formula left right : Formula}

/-- Formulas that are no disjunctions are parts of disjunctions as they are parts of
conjunctions. -/
theorem disjunct_single (single : formula.isDisjunction = false)
    (tidy : Tidy formula.render.toList)
    (conjunct : ∀ depth, conjunctive.Joined depth (negated depth) (fun _ => True)
      formula.render.toList formula.reassociate) (depth : Nat) :
    disjunctive.Joined depth (chain conjunction? (negated depth))
      (fun kind => True ∧ conjunction? kind = none) formula.render.toList formula.reassociate :=
  Connective.Joined.single (conjunct depth).reads tidy fun _ _ =>
    joinDisjunction_single (by simpa using single)

theorem conjunct_single {text : List Char} (single : formula.isConjunction = false)
    (tidy : Tidy text) (operand : ∀ depth, ReadsNegated depth text formula.reassociate)
    (depth : Nat) :
    conjunctive.Joined depth (negated depth) (fun _ => True) text formula.reassociate :=
  Connective.Joined.single (operand depth).reads tidy fun _ _ =>
    joinConjunction_single (by simpa using single)

/-- A formula with no connective of its own. -/
theorem reread_operand (simple : formula.isCompound = false) (tidy : Tidy formula.render.toList)
    (operand : ∀ depth, ReadsNegated depth formula.render.toList formula.reassociate) :
    formula.Reread := by
  have noConjunction : formula.isConjunction = false := by
    cases formula <;> first | rfl | cases simple
  have noDisjunction : formula.isDisjunction = false := by
    cases formula <;> first | rfl | cases simple
  have conjunct := conjunct_single noConjunction tidy operand
  refine ⟨?_, ?_, disjunct_single noDisjunction tidy conjunct⟩
  · rwa [simple]
  · rwa [noDisjunction]

/-- What is part of a disjunction is a group in parentheses. -/
theorem operand_group
    (disjunct : ∀ depth, disjunctive.Joined depth (chain conjunction? (negated depth))
      (fun kind => True ∧ conjunction? kind = none) formula.render.toList formula.reassociate)
    (depth : Nat) :
    ReadsNegated depth (parenthesizedIf true formula.render).toList formula.reassociate := by
  have text : (parenthesizedIf true formula.render).toList =
      '(' :: (formula.render.toList ++ [')']) := by simp [parenthesizedIf]
  rw [text]
  refine readsNegated_group fun depth => ?_
  intro position more finish w ended ends follows few
  exact (disjunct depth).reads position more finish w ended ends ⟨⟨trivial, follows.1⟩, follows.2⟩
    few

theorem reread_conjunction (first : left.Reread) (second : right.Reread)
    (tidy : Tidy (conjunction left right).render.toList)
    (apart : ∀ n ∈ numbers left.vars, n ∉ numbers right.vars) :
    (conjunction left right).Reread := by
  have text : (conjunction left right).render.toList =
      (parenthesizedIf left.isDisjunction left.render).toList ++
        conjunctive.linked (parenthesizedIf right.isDisjunction right.render).toList := by
    simp [render, linked, conjunctive]
  have conjunct : ∀ depth, conjunctive.Joined depth (negated depth) (fun _ => True)
      (conjunction left right).render.toList (conjunction left right).reassociate := by
    intro depth
    rw [text]
    refine (first.conjunct depth).node (second.conjunct depth) ?_ trivial
    simpa only [vars_reassociate] using apart
  have disjunct := disjunct_single rfl tidy conjunct
  exact ⟨operand_group disjunct, conjunct, disjunct⟩

theorem reread_disjunction (first : left.Reread) (second : right.Reread)
    (tidy : Tidy (parenthesizedIf true (disjunction left right).render).toList)
    (apart : ∀ n ∈ numbers left.vars, n ∉ numbers right.vars) :
    (disjunction left right).Reread := by
  have text : (disjunction left right).render.toList =
      left.render.toList ++ disjunctive.linked right.render.toList := by
    simp [render, linked, disjunctive]
  have disjunct : ∀ depth, disjunctive.Joined depth (chain conjunction? (negated depth))
      (fun kind => True ∧ conjunction? kind = none) (disjunction left right).render.toList
      (disjunction left right).reassociate := by
    intro depth
    rw [text]
    refine (first.disjunct depth).node (second.disjunct depth) ?_ ⟨trivial, rfl⟩
    simpa only [vars_reassociate] using apart
  have operand := operand_group disjunct
  exact ⟨operand, conjunct_single rfl tidy operand, disjunct⟩

/-- Every legible formula with different wildcards is read back regrouped from its text, if each of
its terms is read back from its own text. -/
theorem reread_of_legible (legible : formula.Legible)
    (survive : ∀ term ∈ formula.terms, term.Survives)
    (different : (numbers formula.vars).Nodup) : formula.Reread := by
  induction legible with
  | literal term inner plain =>
    refine reread_operand rfl (Legible.literal term inner plain).neat_render.tidy fun depth => ?_
    exact readsNegated_literal inner plain (survive term (by simp [terms]))
  | negation formula inner ih =>
    refine reread_operand rfl (Legible.negation formula inner).neat_render.tidy fun depth => ?_
    have text : (negation formula).render.toList = 'n' :: 'o' :: 't' :: ' ' ::
        (parenthesizedIf formula.isCompound formula.render).toList := by simp [render]
    rw [text]
    exact readsNegated_not ((ih survive different).operand depth)
  | conjunction left right first second ih ih' =>
    rw [vars, numbers_append, List.nodup_append] at different
    refine reread_conjunction (ih (fun term member => survive term (by simp [terms, member]))
      different.1) (ih' (fun term member => survive term (by simp [terms, member]))
      different.2.1) (Legible.conjunction left right first second).neat_render.tidy ?_
    exact fun n inLeft inRight => different.2.2 n inLeft n inRight rfl
  | disjunction left right first second ih ih' =>
    rw [vars, numbers_append, List.nodup_append] at different
    refine reread_disjunction (ih (fun term member => survive term (by simp [terms, member]))
      different.1) (ih' (fun term member => survive term (by simp [terms, member]))
      different.2.1) ?_ ?_
    · exact (neat_parenthesizedIf true
        (Legible.disjunction left right first second).neat_render).tidy
    · exact fun n inLeft inRight => different.2.2 n inLeft n inRight rfl
  | comparison relation left right known first second =>
    refine reread_operand rfl
      (Legible.comparison relation left right known first second).neat_render.tidy fun depth => ?_
    obtain ⟨kind, known⟩ := known
    have text : (comparison relation left right).render.toList =
        left.render.toList ++ related relation right.render.toList := by simp [render, related]
    rw [vars, numbers_append, List.nodup_append] at different
    rw [text]
    refine readsNegated_comparison known first second (survive left (by simp [terms]))
      (survive right (by simp [terms])) ?_
    exact fun n inLeft inRight => different.2.2 n inLeft n inRight rfl

/-- What is read as a formula is legible and numbers its wildcards in order. -/
theorem legible_of_read {text : String} (done : read text = .ok formula) :
    formula.Legible ∧ ∃ count, Numbered 0 count formula.vars := by
  obtain ⟨middle, -, ran, -⟩ := Source.read_ok done
  have paired : (Term.twice (Source.finishOf text) 0).Paired (scan .start text.toList)
      (scan .start text.toList) := Term.twice_paired fun token => Source.spelled_scan
  obtain ⟨outcome, left, count, again, -, -, -, same⟩ := reads_parse (Term.twice_fit rfl 0) rfl
    (fun _ own => own) _ 0 _ _ paired (Nat.lt_succ_self _)
  rw [Term.twice_first, ← Source.start_eq, ran] at again
  cases again
  obtain ⟨_, -, -, -, outcomes⟩ := same (.inr (.inr rfl))
  cases outcomes with
  | ok copied => exact ⟨copied.legible, count, copied.numbered⟩

/-- A formula that was read is read back from its text, regrouped to the left and with other numbers
for its wildcards, if each of its terms is. -/
theorem read_render {text : String} (done : read text = .ok formula)
    (survive : ∀ term ∈ formula.terms, term.Survives) :
    ∃ g : Nat → Nat, Function.Injective g ∧
      read formula.render = .ok (formula.reassociate.rename (.renumber g)) := by
  obtain ⟨legible, high, numbered⟩ := legible_of_read done
  have different := numbered.rising.imp Nat.ne_of_lt
  obtain ⟨other, count, -, like, ran⟩ :=
    ((reread_of_legible legible survive different).disjunct _).reads .start []
      (Source.finishOf formula.render) 0 rfl ⟨⟨Source.detached_nil, rfl, rfl⟩, rfl⟩
      ⟨⟨trivial, rfl⟩, rfl⟩ (Nat.le_refl _)
  obtain ⟨g, one, rfl⟩ := like.injective
  refine ⟨g, one, ?_⟩
  rw [List.append_nil] at ran
  have whole : parse (start formula.render) =
      (.ok (formula.reassociate.rename (.renumber g)), ⟨[], Source.finishOf formula.render, count⟩) := by
    rw [Source.start_eq, parse, run_then (run_budget _)]
    exact ran
  exact read_of_run whole (.inl rfl)

end AgentSpeak.Formula
