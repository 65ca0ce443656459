import AgentSpeak.Proofs.Beliefs.Streams
import AgentSpeak.Proofs.Unification.Ground

/-!
Searches without and with the occurs check. Where only ground facts are unified with, nothing is ever
refused by it, so without rules and equations the two searches go the same way. Both bind without
making a cycle, and so the check makes no difference further on either.
-/

namespace AgentSpeak

open Substitution

/-- A formula without the relation `=`. All that it unifies literals with comes from the base. -/
def Formula.isEquationFree : Formula → Bool
  | .literal _ => true
  | .negation formula => formula.isEquationFree
  | .conjunction left right => left.isEquationFree && right.isEquationFree
  | .disjunction left right => left.isEquationFree && right.isEquationFree
  | .comparison relation _ _ => relation != .unify

namespace Search

/-- Two searches that go the same way while all facts are ground and there are no rules, and that bind
without making a cycle. -/
inductive Agrees : Search → Search → Prop where
  | done : Agrees .done .done
  | failed (fault : Fault) : Agrees (.failed fault) (.failed fault)
  | answer {θ : Substitution} (acyclic : θ.Acyclic) (others : Agrees (rest ()) (rest' ())) :
      Agrees (.answer θ rest) (.answer θ rest')
  | facts (key : Indicator)
      (each : ∀ facts, (∀ fact ∈ facts, fact.isGround = true) → Agrees (next facts) (next' facts)) :
      Agrees (.facts key next) (.facts key next')
  | rules (key : Indicator) (none : Agrees (next []) (next' [])) :
      Agrees (.rules key next) (.rules key next')

variable {fast safe : Search} {θ : Substitution} {literal : Term}

theorem agrees_single (acyclic : θ.Acyclic) : Agrees (single θ) (single θ) :=
  .answer acyclic .done

theorem Agrees.append {others others' : Unit → Search} (first : Agrees fast safe)
    (second : Agrees (others ()) (others' ())) :
    Agrees (fast.append others) (safe.append others') := by
  induction first with
  | done => exact second
  | failed fault => exact .failed fault
  | answer acyclic _ ih => exact .answer acyclic ih
  | facts key _ ih => exact .facts key ih
  | rules key _ ih => exact .rules key ih

theorem Agrees.bind {second second' : Substitution → Search} (first : Agrees fast safe)
    (each : ∀ θ, θ.Acyclic → Agrees (second θ) (second' θ)) :
    Agrees (fast.bind second) (safe.bind second') := by
  induction first with
  | done => exact .done
  | failed fault => exact .failed fault
  | answer acyclic _ ih => exact (each _ acyclic).append ih
  | facts key _ ih => exact .facts key ih
  | rules key _ ih => exact .rules key ih

theorem Agrees.refute (first : Agrees fast safe) (acyclic : θ.Acyclic) :
    Agrees (fast.refute θ) (safe.refute θ) := by
  induction first with
  | done => exact agrees_single acyclic
  | failed fault => exact .failed fault
  | answer => exact .done
  | facts key _ ih => exact .facts key ih
  | rules key _ ih => exact .rules key ih

/-- Facts are ground, so the check refuses none of them and each leaves the bindings acyclic. -/
theorem agrees_matching (acyclic : θ.Acyclic) {facts : List Term}
    (ground : ∀ fact ∈ facts, fact.isGround = true) :
    Agrees (matching false literal θ facts) (matching true literal θ facts) := by
  induction facts with
  | nil => exact .done
  | cons fact rest ih =>
    obtain ⟨own, others⟩ := List.forall_mem_cons.mp ground
    rw [matching, matching, Substitution.unify?_of_isGround own literal θ false]
    split
    next extended found => exact .answer (acyclic.of_unify? found) (ih others)
    next => exact ih others

theorem agrees_asking {prove prove' : Formula → Substitution → Search} (acyclic : θ.Acyclic)
    (literal : Term) : Agrees (asking false prove literal θ) (asking true prove' literal θ) := by
  unfold asking
  split
  next => exact agrees_single acyclic
  next => exact .done
  next =>
    split
    next => exact .failed _
    next key _ =>
      exact .facts key fun facts ground => (agrees_matching acyclic ground).append (.rules key .done)

theorem relating_of_ne {relation : Relation} (other : relation ≠ .unify) (check : Bool)
    (left right : Term) (θ : Substitution) :
    relating check relation left right θ =
      ofResult (do return if ← θ.compare relation left right then some θ else none) := by
  cases relation with
  | unify => exact absurd rfl other
  | _ => rfl

theorem agrees_relating {relation : Relation} (other : relation ≠ .unify) (left right : Term)
    (acyclic : θ.Acyclic) :
    Agrees (relating false relation left right θ) (relating true relation left right θ) := by
  rw [relating_of_ne other, relating_of_ne other]
  cases θ.compare relation left right with
  | error fault => exact .failed fault
  | ok holds =>
    cases holds with
    | false => exact .done
    | true => exact agrees_single acyclic

theorem agrees_solvingWith {ask ask' : Term → Substitution → Search}
    (asks : ∀ literal θ, θ.Acyclic → Agrees (ask literal θ) (ask' literal θ)) {formula : Formula}
    (free : formula.isEquationFree = true) (acyclic : θ.Acyclic) :
    Agrees (solvingWith false ask formula θ) (solvingWith true ask' formula θ) := by
  induction formula generalizing θ with
  | literal term => exact asks term θ acyclic
  | negation formula ih => exact (ih free acyclic).refute acyclic
  | conjunction left right leftIh rightIh =>
    obtain ⟨one, other⟩ := Bool.and_eq_true_iff.mp free
    exact (leftIh one acyclic).bind fun θ acyclic => rightIh other acyclic
  | disjunction left right leftIh rightIh =>
    obtain ⟨one, other⟩ := Bool.and_eq_true_iff.mp free
    exact (leftIh one acyclic).append (rightIh other acyclic)
  | comparison relation left right =>
    exact agrees_relating (bne_iff_ne.mp free) left right acyclic

theorem agrees_queryWithin (limits : Limits) (levels : Nat) (literal : Term)
    (acyclic : θ.Acyclic) :
    Agrees (queryWithin { limits with occursCheck := false } levels literal θ)
      (queryWithin { limits with occursCheck := true } levels literal θ) := by
  cases levels with
  | zero => exact .failed _
  | succ levels => exact agrees_asking acyclic literal

theorem agrees_solve (limits : Limits) {formula : Formula} (free : formula.isEquationFree = true)
    (acyclic : θ.Acyclic) :
    Agrees (solve { limits with occursCheck := false } formula θ)
      (solve { limits with occursCheck := true } formula θ) :=
  agrees_solvingWith (fun literal _ => agrees_queryWithin limits _ literal) free acyclic

end Search

namespace BeliefBase

open Search

variable {base : BeliefBase} {fast safe : Search}

theorem all_of_agrees (agrees : Agrees fast safe)
    (ground : ∀ fact ∈ base.facts, fact.isGround = true)
    (unruled : ∀ key, base.ruleGroups.get key = []) :
    base.all fast = base.all safe ∧ ∀ θ ∈ (base.all fast).1, θ.Acyclic := by
  induction agrees with
  | done => exact ⟨rfl, fun _ member => absurd member List.not_mem_nil⟩
  | failed fault => exact ⟨rfl, fun _ member => absurd member List.not_mem_nil⟩
  | answer acyclic _ ih =>
    obtain ⟨same, others⟩ := ih
    exact ⟨by simp only [all, same], List.forall_mem_cons.mpr ⟨acyclic, others⟩⟩
  | facts key _ ih =>
    exact ih _ fun fact member => ground fact (Groups.mem_toList_of_mem_get member)
  | rules key _ ih =>
    rw [all, all, unruled key]
    exact ih

/-- The occurs check makes no difference to what is stored. From acyclic bindings every pattern unifies
with a ground fact in the same way without the check and with it, and makes no cycle. So over facts
alone a question without equations has the same answers in the same order, and ends in the same way. -/
theorem unchecked_exact {θ : Substitution} (acyclic : θ.Acyclic) :
    (∀ (pattern : Term) {fact : Term}, fact.isGround = true →
        θ.unify? false pattern fact = θ.unify? true pattern fact ∧
          ∀ θ', θ.unify? false pattern fact = some θ' → θ'.Acyclic) ∧
      ∀ {base : BeliefBase}, base.Built → base.rules = [] →
        ∀ {formula : Formula}, formula.isEquationFree = true → ∀ limits : Limits,
          let fast := base.all (Search.solve { limits with occursCheck := false } formula θ)
          let safe := base.all (Search.solve { limits with occursCheck := true } formula θ)
          fast = safe ∧ ∀ θ' ∈ fast.1, θ'.Acyclic := by
  refine ⟨fun pattern fact ground => ?_, fun {base} built unruled formula free limits => ?_⟩
  · exact ⟨Substitution.unify?_of_isGround ground pattern θ false,
      fun θ' found => acyclic.unify?_of_isGround ground found⟩
  · have none (key : Indicator) : base.ruleGroups.get key = [] :=
      built.ordered.rules_get_eq_nil (unruled ▸ List.forall_mem_nil _)
    exact all_of_agrees (agrees_solve limits free acyclic) built.ordered.ground none

/-- With `X` bound to `f(Y, Z)`, the fact `p(f(1, 2))` binds `Y` and `Z` with and without the check, and
so does `p(f(1, 1))`. Only the second one is an answer to `p(X) & not q(Z)` where `q(2)` is believed. -/
theorem unchecked_exact_pair :
    let pair (one other : Term) : Term := .compound "f" [one, other]
    let p (term : Term) : Term := .compound "p" [term]
    let number (n : Int) : Term := .number (.int n)
    let q (term : Term) : Term := .compound "q" [term]
    let X : Variable := ⟨"X", []⟩
    let Y : Variable := ⟨"Y", []⟩
    let Z : Variable := ⟨"Z", []⟩
    let θ := Substitution.empty.insert X (pair (.var Y) (.var Z))
    let base : BeliefBase :=
      ⟨[(⟨"p", 1⟩, [p (pair (number 1) (number 2)), p (pair (number 1) (number 1))]),
        (⟨"q", 1⟩, [q (number 2)])], [], 0⟩
    let formula : Formula := .conjunction (.literal (p (.var X))) (.negation (.literal (q (.var Z))))
    let fast := base.all (Search.solve { occursCheck := false } formula θ)
    θ.Acyclic ∧ base.Built ∧
      (θ.unify? true (p (.var X)) (p (pair (number 1) (number 2)))).map (Substitution.texts [Y, Z]) =
        some [("Y", "1"), ("Z", "2")] ∧
      fast.1.map (Substitution.texts [X, Y, Z]) = [[("X", "f(1, 1)"), ("Y", "1"), ("Z", "1")]] ∧
      fast = base.all (Search.solve { occursCheck := true } formula θ) := by
  intro pair p number q X Y Z θ base formula fast
  have acyclic : θ.Acyclic := acyclic_single _ _ (by decide)
  have built : base.Built := .asserted (.asserted (.asserted .empty
    (p (pair (number 1) (number 2)))) (p (pair (number 1) (number 1)))) (q (number 2))
  obtain ⟨stored, solved⟩ := unchecked_exact acyclic
  refine ⟨acyclic, built, ?_, by decide +kernel, (solved built rfl rfl {}).1⟩
  rw [← (stored (p (.var X)) rfl).1]
  decide +kernel

end BeliefBase

end AgentSpeak
