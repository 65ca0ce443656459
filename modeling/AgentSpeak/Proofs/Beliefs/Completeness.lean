import AgentSpeak.Proofs.Beliefs.Reaching
import AgentSpeak.Proofs.Beliefs.Soundness

/-!
Completeness of proofs. A map to ground terms that makes a formula true in the least model leads the
search to an answer that it agrees with, unless a proof is cut off. Each rule on the way is renamed
with a number that no variable of the search carries, so the map can be changed on the renamed
variables alone.
-/

namespace AgentSpeak

open Substitution

namespace Substitution

variable {θ θ' : Substitution} {m n : Nat} {s t : Term} {σ τ : Variable → Term}

/-- The map `σ`, changed to `τ` on the variables that renaming `n` makes. -/
noncomputable def renamedMap (n : Nat) (τ σ : Variable → Term) : Variable → Term :=
  Function.extend (fun w : { w : Variable // w.IsWritten } => w.1.mark [toString n])
    (fun w => τ w.1) σ

theorem renamedMap_mark {v : Variable} (written : v.IsWritten) :
    renamedMap n τ σ (v.mark [toString n]) = τ v := by
  have injective : Function.Injective
      fun w : { w : Variable // w.IsWritten } => w.1.mark [toString n] :=
    fun v w same => Subtype.ext (Variable.mark_injective _ same)
  exact injective.extend_apply _ _ ⟨v, written⟩

theorem renamedMap_older {v : Variable} (older : v.Older m) (later : m < n) :
    renamedMap n τ σ v = σ v := by
  refine Function.extend_apply' _ _ _ ?_
  rintro ⟨⟨w, written⟩, same⟩
  exact older.ne_mark later written same.symm

theorem grounds_renamedMap (one : BeliefBase.Grounds τ) (two : BeliefBase.Grounds σ) :
    BeliefBase.Grounds (renamedMap n τ σ) := by
  intro v
  by_cases made : ∃ w : { w : Variable // w.IsWritten }, w.1.mark [toString n] = v
  · obtain ⟨⟨w, written⟩, same⟩ := made
    rw [← same, renamedMap_mark written]
    exact one w
  · rw [renamedMap, Function.extend_apply' _ _ _ made]
    exact two v

/-- A map that agrees with old bindings still does so after a change to new variables. -/
theorem Solves.renamedMap (solves : Solves σ θ) (older : θ.Over (Variable.Older m))
    (later : m < n) : Solves (renamedMap n τ σ) θ := by
  intro v term found
  rw [renamedMap_older (older.bound v term found) later, solves v term found]
  refine Term.bind_congr fun w member => ?_
  rw [Term.vars_canonical] at member
  exact (renamedMap_older (older.values v term found w member) later).symm

/-- After `n` renamings, a map to ground terms agrees with all bindings. -/
structure Agrees (n : Nat) (θ : Substitution) (σ : Variable → Term) : Prop where
  exact : θ.IsExact
  older : θ.Over (Variable.Older n)
  grounds : BeliefBase.Grounds σ
  solves : Solves σ θ

/-- After `m` renamings, some map agrees with all bindings that is `σ` on every variable which was
there after `n` renamings. -/
def Admits (σ : Variable → Term) (n m : Nat) (θ : Substitution) : Prop :=
  ∃ σ', (∀ v : Variable, v.Older n → σ' v = σ v) ∧ Agrees m θ σ'

theorem Agrees.mono (agrees : Agrees m θ σ) (later : m ≤ n) : Agrees n θ σ :=
  ⟨agrees.exact, agrees.older.mono fun _ old => old.mono later, agrees.grounds, agrees.solves⟩

theorem Agrees.admits (agrees : Agrees m θ σ) (n : Nat) : Admits σ n m θ :=
  ⟨σ, fun _ _ => rfl, agrees⟩

theorem Agrees.unify? (agrees : Agrees n θ σ) (left : s.isExact = true) (right : t.isExact = true)
    (leftOlder : s.Over (Variable.Older n)) (rightOlder : t.Over (Variable.Older n))
    (equal : s.bind σ = t.bind σ) : ∃ θ', θ.unify? true s t = some θ' ∧ Agrees n θ' σ := by
  obtain ⟨θ', found, solves⟩ := (agrees.exact.unify?_iff left right σ).mpr ⟨agrees.solves, equal⟩
  exact ⟨θ', found, agrees.exact.unify? left right found,
    agrees.older.unify? leftOlder rightOlder found, agrees.grounds, solves⟩

end Substitution

namespace Search

variable {base : BeliefBase} {limits : Limits} {formula : Formula} {literal : Term}
  {θ θ' : Substitution} {σ : Variable → Term} {n : Nat}

/-- A search finds an answer that admits `σ`. -/
def Complete (base : BeliefBase) (σ : Variable → Term) (n : Nat) (search : Search) : Prop :=
  Reaches base.groups base.ruleGroups (Admits σ n) n search

theorem solvingWith_complete {ask : Term → Substitution → Search}
    (asks : ∀ literal n θ σ, literal.indicator?.isSome = true → literal.isExact = true →
      literal.Over (Variable.Older n) → Agrees n θ σ → base.LeastModel (literal.bind σ) →
        Complete base σ n (ask literal θ))
    (definite : formula.isDefinite = true) (older : formula.Over (Variable.Older n))
    (agrees : Agrees n θ σ) (true_ : (formula.bind σ).HoldsIn base.LeastModel) :
    Complete base σ n (solvingWith true ask formula θ) := by
  induction formula generalizing n θ σ with
  | literal term =>
    simp only [Formula.isDefinite, Bool.and_eq_true] at definite
    cases true_ with
    | literal least => exact asks term n θ σ definite.1 definite.2 older agrees least
  | conjunction left right leftIh rightIh =>
    simp only [Formula.isDefinite, Bool.and_eq_true] at definite
    simp only [Formula.Over, Formula.vars, List.mem_append] at older
    cases true_ with
    | conjunction first second =>
      refine (leftIh definite.1 (fun v member => older v (.inl member)) agrees first).bind _ ?_
      rintro m middle after ⟨σ', same, agrees'⟩
      have rightOlder : ∀ v ∈ right.vars, v.Older m :=
        fun v member => (older v (.inr member)).mono after
      have rightTrue : (right.bind σ').HoldsIn base.LeastModel := by
        rwa [Formula.bind_congr fun v member => same v (older v (.inr member))]
      refine (rightIh definite.2 rightOlder agrees' rightTrue).mono _ ?_
      rintro k θ' further ⟨σ'', same', agrees''⟩
      exact ⟨σ'', fun v old => (same' v (old.mono after)).trans (same v old), agrees''⟩
  | disjunction left right leftIh rightIh =>
    simp only [Formula.isDefinite, Bool.and_eq_true] at definite
    simp only [Formula.Over, Formula.vars, List.mem_append] at older
    cases true_ with
    | left side =>
      exact (leftIh definite.1 (fun v member => older v (.inl member)) agrees side).append_left
    | right side =>
      refine reaches_append_right _ fun m after => ?_
      have own := rightIh definite.2 (fun v member => (older v (.inr member)).mono after)
        (agrees.mono after) side
      refine own.mono _ ?_
      rintro k θ' further ⟨σ', same, agrees'⟩
      exact ⟨σ', fun v old => same v (old.mono after), agrees'⟩
  | negation formula ih => cases definite
  | comparison relation left right => cases definite

/-- The renamed head of a rule unifies with a literal that one of its instances is equal to, and
some map agrees with the unifier, the literal's instance and the rule's. -/
theorem agrees_rename {rule : Rule} {τ : Variable → Term} {m : Nat} (agrees : Agrees n θ σ)
    (own : literal.isExact = true) (older : literal.Over (Variable.Older n))
    (head : rule.head.isExact = true)
    (written : ∀ v ∈ rule.head.vars ++ rule.body.vars, v.IsWritten)
    (grounds : BeliefBase.Grounds τ) (equal : literal.bind σ = rule.head.bind τ) (later : n < m) :
    ∃ θ', θ.unify? true literal (rule.mark [toString m]).head = some θ' ∧
      Agrees m θ' (renamedMap m τ σ) := by
  have changed : Agrees m θ (renamedMap m τ σ) :=
    ⟨agrees.exact, agrees.older.mono fun _ old => old.mono (Nat.le_of_lt later),
      grounds_renamedMap grounds agrees.grounds, agrees.solves.renamedMap agrees.older later⟩
  refine changed.unify? own (Term.isExact_bind head fun v _ => rfl)
    (older.mono fun _ old => old.mono (Nat.le_of_lt later)) ?_ ?_
  · exact Term.over_mark fun v inside => (written v (List.mem_append_left _ inside)).older_mark m
  · show literal.bind _ = (rule.head.bind _).bind _
    rw [Term.bind_bind, Term.bind_congr fun v member => renamedMap_older (older v member) later,
      equal]
    exact Term.bind_congr fun v member =>
      (renamedMap_mark (written v (List.mem_append_left _ member))).symm

/-- A rule with an instance that proves a literal leads to an answer, whichever number it is renamed
with. -/
theorem rule_complete {ask : Term → Substitution → Search}
    (asks : ∀ literal n θ σ, literal.indicator?.isSome = true → literal.isExact = true →
      literal.Over (Variable.Older n) → Agrees n θ σ → base.LeastModel (literal.bind σ) →
        Complete base σ n (ask literal θ))
    (known : base.IsDefinite) {rule : Rule} (member : rule ∈ base.rules) {τ : Variable → Term}
    {m : Nat} (agrees : Agrees n θ σ) (own : literal.isExact = true)
    (older : literal.Over (Variable.Older n)) (grounds : BeliefBase.Grounds τ)
    (body : (rule.body.bind τ).HoldsIn base.LeastModel)
    (equal : literal.bind σ = rule.head.bind τ) (later : n < m) :
    ∃ θ', θ.unify? true literal (rule.mark [toString m]).head = some θ' ∧
      Reaches base.groups base.ruleGroups (Admits σ n) m
        (solvingWith true ask (rule.mark [toString m]).body θ') := by
  have written v (inside : v ∈ rule.body.vars) :=
    known.written rule member v (List.mem_append_right _ inside)
  obtain ⟨θ', found, agrees'⟩ := agrees_rename agrees own older (known.heads rule member).1
    (known.written rule member) grounds equal later
  have bodyOlder : (rule.mark [toString m]).body.Over (Variable.Older m) :=
    Formula.over_mark fun v inside => (written v inside).older_mark m
  have bodyTrue :
      ((rule.mark [toString m]).body.bind (renamedMap m τ σ)).HoldsIn base.LeastModel := by
    show ((rule.body.mark [toString m]).bind _).HoldsIn _
    rw [Formula.mark_eq_bind, Formula.bind_bind]
    exact (Formula.bind_congr fun v inside => renamedMap_mark (written v inside)) ▸ body
  have proved := solvingWith_complete asks (Formula.isDefinite_mark _ (known.bodies rule member))
    bodyOlder agrees' bodyTrue
  refine ⟨θ', found, proved.mono _ ?_⟩
  rintro k θ'' after ⟨σ'', same'', agrees''⟩
  refine ⟨σ'', fun v old => ?_, agrees''⟩
  rw [same'' v (old.mono (Nat.le_of_lt later)), renamedMap_older old later]

theorem queryWithin_complete (ordered : base.Ordered) (known : base.IsDefinite)
    (checked : limits.occursCheck = true) (levels : Nat)
    (filed : literal.indicator?.isSome = true) (own : literal.isExact = true)
    (older : literal.Over (Variable.Older n)) (agrees : Agrees n θ σ)
    (least : base.LeastModel (literal.bind σ)) :
    Complete base σ n (queryWithin limits levels literal θ) := by
  induction levels generalizing literal n θ σ with
  | zero => trivial
  | succ levels ih =>
    have walked := Substitution.walk_of_filed filed θ
    obtain ⟨key, underKey⟩ := Option.isSome_iff_exists.mp filed
    have instanceKey := Term.indicator?_bind (f := σ) underKey
    rw [queryWithin, checked]
    by_cases isTruth : literal = Term.truth
    · rw [asking, walked, isTruth]
      exact .inl (agrees.admits n)
    have notFalsity : literal ≠ Term.falsity := by
      rintro rfl
      exact BeliefBase.not_leastModel_falsity ordered
        (fun fact member => (known.facts fact member).2)
        (fun rule member => (known.heads rule member).2) least
    refine reaches_asking (by rwa [walked]) (by rwa [walked]) (by rwa [walked]) ?_
    rw [walked]
    -- A true literal is a fact or follows by a rule, and both are filed where the search looks.
    rcases BeliefBase.leastModel_cases least with
      same | fact | ⟨rule, member, τ, grounds, body, same⟩
    · exact absurd (Term.eq_atom_of_bind filed same) isTruth
    · have ground := ordered.ground _ fact
      obtain ⟨θ', found, agrees'⟩ := agrees.unify? own (known.facts _ fact).1 older
        (Term.over_of_isGround ground) (Term.bind_of_isGround ground σ).symm
      exact .inl ⟨_, ordered.mem_get_iff.mpr ⟨fact, instanceKey⟩, θ', found,
        fun m after => (agrees'.mono after).admits n⟩
    · obtain ⟨headKey, headFiled⟩ := ordered.rules.exists_key member
      have sameKey : headKey = key := by
        have byHead := Term.indicator?_bind (f := τ) headFiled
        rw [← same, instanceKey] at byHead
        exact (Option.some.inj byHead).symm
      refine .inr ⟨rule, ordered.mem_rules_get_iff.mpr ⟨member, sameKey ▸ headFiled⟩, ?_⟩
      intro m later
      exact rule_complete (fun literal n θ σ => ih) known member agrees own older grounds body same
        later

/-- A search for answers to a definite formula that is true under `σ` finds one that admits `σ`. -/
theorem solve_complete (ordered : base.Ordered) (known : base.IsDefinite)
    (checked : limits.occursCheck = true) (definite : formula.isDefinite = true)
    (older : formula.Over (Variable.Older n)) (agrees : Agrees n θ σ)
    (true_ : (formula.bind σ).HoldsIn base.LeastModel) :
    Complete base σ n (solve limits formula θ) := by
  rw [solve, checked]
  exact solvingWith_complete (fun literal n θ σ => queryWithin_complete ordered known checked _)
    definite older agrees true_

end Search

namespace BeliefBase

/-- A formula with every bound variable replaced by its full value. -/
def under (θ : Substitution) (formula : Formula) : Formula :=
  formula.bind fun v => θ.apply (.var v)

/-- The answers to a definite formula are sound and complete. Each ground instance of the formula
under an answer is true in the least model. Unless the search fails, each ground instance that is
true there is an instance of the formula under some answer. In the least model `true` holds and
`false` does not. -/
theorem solve_sound_complete {base : BeliefBase} (built : base.Built) (known : base.IsDefinite)
    {limits : Limits} (checked : limits.occursCheck = true) {formula : Formula}
    (definite : formula.isDefinite = true) (written : ∀ v ∈ formula.vars, v.IsWritten) :
    (∀ θ ∈ (base.all (Search.solve limits formula .empty)).1, ∀ σ, Grounds σ →
      ((under θ formula).bind σ).HoldsIn base.LeastModel) ∧
    ((base.all (Search.solve limits formula .empty)).2.1 = none → ∀ σ, Grounds σ →
      (formula.bind σ).HoldsIn base.LeastModel →
        ∃ θ ∈ (base.all (Search.solve limits formula .empty)).1, ∃ τ, Grounds τ ∧
          formula.bind σ = (under θ formula).bind τ) ∧
    base.LeastModel Term.truth ∧ ¬base.LeastModel Term.falsity := by
  have ordered := built.ordered
  refine ⟨?_, ?_, base.leastModel_isModel.truth, ?_⟩
  · intro θ member σ grounds
    have sound := Search.solve_sound ordered known checked definite isExact_empty
    have proof := answers_of_within (fun _ own => own) (fun _ own => own) sound θ member
    rw [under, Formula.bind_bind]
    refine proof.true_ _ (fun v => Term.isGround_bind fun w _ => grounds w) ?_
    exact proof.exact.solves_apply σ
  · intro ended σ grounds true_
    have started : Agrees base.renamings .empty σ :=
      ⟨isExact_empty, over_empty, grounds, fun v term found => by simp at found⟩
    have complete := Search.solve_complete ordered known checked definite
      (fun v member => .inl (written v member)) started true_
    obtain ⟨θ, member, m, -, τ, same, agrees⟩ := exists_answer_of_reaches complete ended
    refine ⟨θ, member, τ, agrees.grounds, ?_⟩
    rw [under, Formula.bind_bind]
    refine Formula.bind_congr fun v inside => ?_
    rw [← same v (.inl (written v inside))]
    exact agrees.solves.eq_apply agrees.exact v
  · exact not_leastModel_falsity ordered (fun fact member => (known.facts fact member).2)
      fun rule member => (known.heads rule member).2

/-- A base with the fact `p(1)` and the rule `q(X) :- p(X)`. -/
def oneRule : BeliefBase :=
  addRule ⟨[(⟨"p", 1⟩, [.compound "p" [.number (.int 1)]])], [], 0⟩
    ⟨.compound "q" [.var ⟨"X", []⟩], .literal (.compound "p" [.var ⟨"X", []⟩])⟩

theorem built_oneRule : oneRule.Built :=
  .ruled (.asserted .empty (.compound "p" [.number (.int 1)])) _

theorem isDefinite_oneRule : oneRule.IsDefinite := by
  have facts : oneRule.facts = [.compound "p" [.number (.int 1)]] := rfl
  have rules : oneRule.rules = [⟨.compound "q" [.var ⟨"X", []⟩],
    .literal (.compound "p" [.var ⟨"X", []⟩])⟩] := rfl
  refine ⟨?_, ?_, ?_, ?_⟩
  · rw [facts, List.forall_mem_singleton]
    exact ⟨rfl, by simp [Term.falsity]⟩
  · rw [rules, List.forall_mem_singleton]
    exact ⟨rfl, by simp [Term.falsity]⟩
  · rw [rules, List.forall_mem_singleton]
    rfl
  · rw [rules, List.forall_mem_singleton]
    intro v occurs
    have same : v = ⟨"X", []⟩ := by simpa [Formula.vars] using occurs
    exact .inl (by simp [same])

/-- From the fact and the rule, the search for `q(Y)` finds `q(1)`. -/
theorem solve_sound_complete_oneRule :
    oneRule.Built ∧ oneRule.IsDefinite ∧
      ∃ θ ∈ (oneRule.all (Search.solve ⟨1, 0, true⟩ (.literal (.compound "q" [.var ⟨"Y", []⟩]))
        .empty)).1, ∃ τ, Grounds τ ∧ Formula.literal (.compound "q" [.number (.int 1)]) =
          (under θ (.literal (.compound "q" [.var ⟨"Y", []⟩]))).bind τ := by
  refine ⟨built_oneRule, isDefinite_oneRule, ?_⟩
  have written : ∀ v ∈ (Formula.literal (.compound "q" [.var ⟨"Y", []⟩])).vars, v.IsWritten := by
    intro v occurs
    have same : v = ⟨"Y", []⟩ := by simpa [Formula.vars] using occurs
    exact .inl (by simp [same])
  have checked : (⟨1, 0, true⟩ : Limits).occursCheck = true := rfl
  have complete := (solve_sound_complete built_oneRule isDefinite_oneRule checked rfl written).2.1
    rfl (fun _ => .number (.int 1)) (fun _ => rfl)
  refine complete ?_
  have model := oneRule.leastModel_isModel
  have fact : oneRule.LeastModel (.compound "p" [.number (.int 1)]) :=
    model.facts _ List.mem_cons_self
  exact .literal (model.rules _ List.mem_cons_self (fun _ => .number (.int 1)) (fun _ => rfl)
    (.literal fact))

end BeliefBase

end AgentSpeak
