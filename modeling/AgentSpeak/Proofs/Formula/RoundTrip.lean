import AgentSpeak.Proofs.Beliefs.Renaming
import AgentSpeak.Proofs.Formula.Rereading

namespace AgentSpeak

/-- Each variable of a rule has a name or, as a wildcard, a number. -/
def Rule.IsNumbered (rule : Rule) : Prop :=
  ∀ v ∈ rule.head.vars ++ rule.body.vars, v ≠ ⟨"_", []⟩

/-- No renaming of a rule makes a wildcard of a text. -/
theorem Rule.IsNumbered.renames {rule : Rule} (numbered : rule.IsNumbered) (g : Nat → Nat) :
    rule.Renames fun v => v.renumber g = v := by
  intro v member n
  refine Variable.renumber_of_none (Variable.number?_eq_none_iff.mpr fun m wild => ?_) g
  obtain ⟨base, marks⟩ := v
  have named := numbered _ member
  cases marks <;> simp_all [Variable.mark, Variable.wildcard]

theorem Formula.namedVariables_reassociate (formula : Formula) :
    formula.reassociate.namedVariables = formula.namedVariables := by
  rw [namedVariables, namedVariables, vars_reassociate]

theorem Variable.renumber_of_named {v : Variable} (named : v.isAnonymous = false) (g : Nat → Nat) :
    v.renumber g = v := by
  refine renumber_of_none (number?_eq_none_iff.mpr ?_) g
  rintro n rfl
  cases named

/-- Other numbers for wildcards leave the named variables as they are. -/
theorem Formula.namedVariables_renumber (g : Nat → Nat) (formula : Formula) :
    (formula.rename (.renumber g)).namedVariables = formula.namedVariables := by
  have kept : ∀ v : Variable, (v.renumber g).isAnonymous = v.isAnonymous := by
    intro v
    cases found : v.number? with
    | none => rw [Variable.renumber_of_none found]
    | some n => rw [Variable.eq_wildcard_of_number? found, Variable.renumber_wildcard]; rfl
  have predicate : (fun v : Variable => !v.isAnonymous) ∘ Variable.renumber g =
      fun v => !v.isAnonymous := funext fun v => congrArg not (kept v)
  rw [namedVariables, namedVariables, vars_rename, List.filter_map, predicate]
  refine congrArg List.eraseDups ?_
  refine (List.map_congr_left fun v member => ?_).trans (List.map_id _)
  exact Variable.renumber_of_named (by simpa using (List.mem_filter.mp member).2) g

namespace BeliefBase

/-- What the search for a formula comes to: the values of its named variables in each answer, as
texts, the kind and the message of the fault that cuts it short, and the base it leaves. -/
def outcome (base : BeliefBase) (limits : Limits) (formula : Formula) :
    List (List (Variable × String)) × Option (FaultKind × String) × BeliefBase :=
  let (answers, fault, after) := base.all (Search.solve limits formula .empty)
  (answers.map fun θ => (θ.restrict formula.namedVariables).map fun binding =>
      (binding.1, binding.2.render),
    fault.map fun fault => (fault.kind, fault.message), after)

variable {base : BeliefBase} (ground : ∀ fact ∈ base.facts, fact.isGround = true)
  (numbered : ∀ rule ∈ base.rules, rule.IsNumbered)

include ground numbered

/-- A formula regrouped and with other numbers for its wildcards has the same answers with these
numbers. -/
theorem all_renumber {g : Nat → Nat} (one : Function.Injective g) (limits : Limits)
    (formula : Formula) :
    base.all (Search.solve limits (formula.reassociate.rename (.renumber g)) .empty) =
      ((base.all (Search.solve limits formula .empty)).1.map (.rename (.renumber g)),
        (base.all (Search.solve limits formula .empty)).2.1.map (.rename (.renumber g)),
        (base.all (Search.solve limits formula .empty)).2.2) := by
  have renamed := Search.renamed_solve (Variable.renumber_injective one) limits
    formula.reassociate .empty
  have regrouped : Search.solve limits formula.reassociate .empty =
      Search.solve limits formula .empty := Search.solvingWith_reassociate _ _ formula .empty
  rw [regrouped, Substitution.rename_empty] at renamed
  exact all_renamed renamed ground fun rule member => (numbered rule member).renames g

theorem outcome_renumber {g : Nat → Nat} (one : Function.Injective g) (limits : Limits)
    (formula : Formula) :
    base.outcome limits (formula.reassociate.rename (.renumber g)) =
      base.outcome limits formula := by
  have written : ∀ v : Variable, (v.renumber g).base = v.base := Variable.base_renumber g
  have fixed : ∀ v ∈ formula.namedVariables, v.renumber g = v := fun v member =>
    Variable.renumber_of_named (by
      simpa using (List.mem_filter.mp (List.mem_eraseDups.mp member)).2) g
  rw [outcome, outcome, all_renumber ground numbered one, Formula.namedVariables_renumber,
    Formula.namedVariables_reassociate]
  simp only [List.map_map, Option.map_map, Prod.mk.injEq, and_true]
  constructor
  · refine List.map_congr_left fun θ _ => ?_
    simp only [Function.comp_apply]
    rw [Substitution.restrict_rename (Variable.renumber_injective one) θ fixed, List.map_map]
    refine List.map_congr_left fun binding _ => ?_
    simp only [Function.comp_apply, Term.render_rename written]
  · refine congrArg (Option.map · _) (funext fun fault => ?_)
    simp only [Function.comp_apply, Fault.kind_rename, Fault.message_rename written]

end BeliefBase

namespace Formula

/-- Showing a formula and reading it again preserves it and its meaning. A formula that was read is
read back from its text regrouped to the left and with other numbers for its wildcards, if each of
its terms is read back from its own text but for these numbers. In every base of ground facts and
numbered rules the two formulas have the same answers, in the same order, but for these numbers;
their values of the named variables have the same texts, the search ends with the same message if it
fails, and it leaves the same base. -/
theorem read_render_means {text : String} {formula : Formula} (done : read text = .ok formula)
    (survive : ∀ term ∈ formula.terms, term.Survives) :
    ∃ g : Nat → Nat, Function.Injective g ∧
      read formula.render = .ok (formula.reassociate.rename (.renumber g)) ∧
      formula.reassociate.LeftNested ∧
      ∀ (base : BeliefBase) (limits : Limits), (∀ fact ∈ base.facts, fact.isGround = true) →
        (∀ rule ∈ base.rules, rule.IsNumbered) →
        (base.all (Search.solve limits (formula.reassociate.rename (.renumber g)) .empty)).1 =
          (base.all (Search.solve limits formula .empty)).1.map (.rename (.renumber g)) ∧
        base.outcome limits (formula.reassociate.rename (.renumber g)) =
          base.outcome limits formula := by
  obtain ⟨g, one, again⟩ := read_render done survive
  refine ⟨g, one, again, leftNested_reassociate formula, fun base limits ground numbered => ?_⟩
  have all := BeliefBase.all_renumber ground numbered one limits formula
  exact ⟨congrArg Prod.fst all, BeliefBase.outcome_renumber ground numbered one limits formula⟩

/-- A formula with a nested conjunction and a wildcard that is counted twice. -/
def nested : Formula :=
  .conjunction (.literal (.atom "a")) (.conjunction (.literal (.atom "b"))
    (.comparison .unify (.var (.wildcard 2)) (.number (.int 1))))

/-- A wildcard survives, whatever number it has. -/
theorem survives_wildcard (n : Nat) : (Term.var (.wildcard n)).Survives := by
  have read : Term.read "_" = .ok (.var (.wildcard 1)) := rfl
  exact ⟨_, read, Equiv.swap n 1, (Equiv.swap n 1).injective, by simp⟩

theorem survives_of_read (term : Term) (read : Term.read term.render = .ok term)
    (unnumbered : ∀ v ∈ term.vars, v.number? = none) : term.Survives := by
  refine ⟨term, read, id, Function.injective_id, (Term.rename_self fun v member => ?_).symm⟩
  exact Variable.renumber_of_none (unnumbered v member) id

theorem survive_nested : ∀ term ∈ nested.terms, term.Survives := by
  intro term member
  simp only [nested, terms, List.mem_append, List.mem_cons, List.not_mem_nil, or_false] at member
  rcases member with rfl | rfl | rfl | rfl
  · exact survives_of_read (.atom "a") rfl (by decide)
  · exact survives_of_read (.atom "b") rfl (by decide)
  · exact survives_wildcard 2
  · exact survives_of_read (.number (.int 1)) rfl (by decide)

/-- A base with the facts `a` and `b`. -/
def bothFacts : BeliefBase :=
  ⟨[(⟨"a", 0⟩, [.atom "a"]), (⟨"b", 0⟩, [.atom "b"])], [], 0⟩

/-- The nested conjunction is read back from `a & b & _ = 1`, where it has its one answer too. -/
theorem read_render_means_nested :
    read "a & (b & (_) = 1)" = .ok nested ∧ nested.render = "a & b & _ = 1" ∧
      ∃ g : Nat → Nat, Function.Injective g ∧
        read "a & b & _ = 1" = .ok (nested.reassociate.rename (.renumber g)) ∧
        bothFacts.outcome ⟨1, 1, true⟩ (nested.reassociate.rename (.renumber g)) =
          ([[]], none, bothFacts) := by
  have done : read "a & (b & (_) = 1)" = .ok nested := rfl
  have shown : nested.render = "a & b & _ = 1" := rfl
  obtain ⟨g, one, again, -, means⟩ := read_render_means done survive_nested
  have noRules : ∀ rule ∈ bothFacts.rules, rule.IsNumbered := fun _ member =>
    absurd member List.not_mem_nil
  have same := means bothFacts ⟨1, 1, true⟩ (by decide) noRules
  have answer : bothFacts.outcome ⟨1, 1, true⟩ nested = ([[]], none, bothFacts) := rfl
  exact ⟨done, shown, g, one, shown ▸ again, same.2.trans answer⟩

/-- The base `p(_) :- q(_). q(1).` of a rule that was not read, whose variable is named `_`. -/
def underscored : BeliefBase :=
  .addRule ⟨[(⟨"q", 1⟩, [.compound "q" [.number (.int 1)]])], [], 0⟩
    ⟨.compound "p" [.var ⟨"_", []⟩], .literal (.compound "q" [.var ⟨"_", []⟩])⟩

/-- The first renaming of the rule has the name of the first wildcard of a text. So `(_) = 2 & p(X)`,
whose wildcard is the second one, has an answer, and what it is shown as has none. -/
theorem read_render_underscored :
    let wanted (n : Nat) : Formula := .conjunction
      (.comparison .unify (.var (.wildcard n)) (.number (.int 2)))
      (.literal (.compound "p" [.var ⟨"X", []⟩]))
    let found (n : Nat) := (underscored.all (Search.solve {} (wanted n) .empty)).1.length
    read "(_) = 2 & p(X)" = .ok (wanted 2) ∧ (∀ term ∈ (wanted 2).terms, term.Survives) ∧
      (wanted 2).render = "_ = 2 & p(X)" ∧ read "_ = 2 & p(X)" = .ok (wanted 1) ∧
      found 2 = 1 ∧ found 1 = 0 := by
  intro wanted found
  refine ⟨rfl, fun term member => ?_, rfl, rfl, by decide +kernel, by decide +kernel⟩
  simp only [wanted, terms, List.mem_append, List.mem_cons, List.not_mem_nil, or_false] at member
  rcases member with (rfl | rfl) | rfl
  · exact survives_wildcard 2
  · exact survives_of_read (.number (.int 2)) rfl (by decide)
  · exact survives_of_read (.compound "p" [.var ⟨"X", []⟩]) rfl (by decide)

end Formula

end AgentSpeak
