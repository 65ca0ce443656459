import AgentSpeak.Proofs.Agent.Acyclic
import AgentSpeak.Proofs.Agent.Replay
import AgentSpeak.Proofs.Substitution.Restriction
import AgentSpeak.Proofs.Term.Folding

/-!
Asking for what is believed. A literal that is ground under the bindings of a frame and is believed is
answered from the beliefs, and the answer binds nothing more. So what a frame has added it can ask for,
as long as there is nothing to compute in it: adding computes what a literal says, and asking does not.

What somebody outside is answered says all that was found about the variables of the question.
-/

namespace AgentSpeak

open Substitution

namespace Substitution

variable {θ : Substitution} {s t fact : Term} {check : Bool} {outcome : Option Substitution}

mutual

/-- Unification of terms that have full values binds nothing. -/
theorem Unifies.settled {s t : Term} {θ : Substitution} {outcome : Option Substitution} :
    Unifies check s t θ outcome → θ.Acyclic → (θ.apply s).isGround = true →
      (θ.apply t).isGround = true → outcome = none ∨ outcome = some θ
  | .same _ _ _, _, _, _ => .inr rfl
  | .bindLeft left _ _ _, acyclic, ground, _ => by
    rw [← left.apply_eq acyclic (.refl θ), apply_unbound left.unbound_of_var] at ground
    cases ground
  | .bindRight _ right _ _, acyclic, _, ground => by
    rw [← right.apply_eq acyclic (.refl θ), apply_unbound right.unbound_of_var] at ground
    cases ground
  | .descend left right _ _ each, acyclic, first, second => by
    rw [← left.apply_eq acyclic (.refl θ), apply_compound, Term.isGround, Term.isGroundAll_iff,
      List.forall_mem_map] at first
    rw [← right.apply_eq acyclic (.refl θ), apply_compound, Term.isGround, Term.isGroundAll_iff,
      List.forall_mem_map] at second
    exact each.settled acyclic first second
  | .clash _ _ _ _, _, _, _ => .inl rfl

theorem UnifiesAll.settled {xs ys : List Term} {θ : Substitution}
    {outcome : Option Substitution} :
    UnifiesAll check xs ys θ outcome → θ.Acyclic → (∀ x ∈ xs, (θ.apply x).isGround = true) →
      (∀ y ∈ ys, (θ.apply y).isGround = true) → outcome = none ∨ outcome = some θ
  | .nil, _, _, _ => .inr rfl
  | .failed _, _, _, _ => .inl rfl
  | .cons first rest, acyclic, left, right => by
    obtain ⟨leftFirst, leftRest⟩ := List.forall_mem_cons.mp left
    obtain ⟨rightFirst, rightRest⟩ := List.forall_mem_cons.mp right
    rcases first.settled acyclic leftFirst rightFirst with none | same
    · cases none
    · have same := Option.some.inj same
      have later := rest.settled (same ▸ acyclic) (same ▸ leftRest) (same ▸ rightRest)
      rwa [same] at later

end

/-- A term with the value of a literal is one itself. -/
theorem Walks.indicator?_of_apply {key : Indicator} (walks : Walks θ s t)
    (filed : (θ.apply t).indicator? = some key) : t.indicator? = some key := by
  rcases walks.ends with rigid | ⟨w, rfl, free⟩
  · cases t with
    | var v => cases rigid
    | atom name | number value | string value => exact filed
    | compound functor arguments => simpa [Term.indicator?] using filed
  · rw [apply_unbound free] at filed
    cases filed

/-- A term with a ground value is matched with a ground fact by comparing the two. -/
theorem Acyclic.unify?_settled (acyclic : θ.Acyclic) (settled : (θ.apply s).isGround = true)
    (ground : fact.isGround = true) (check : Bool) :
    θ.unify? check s fact = if θ.apply s == fact then some θ else none := by
  rw [Substitution.unify?_of_isGround ground]
  have closed : θ.apply fact = fact := apply_of_isGround ground θ
  rcases (acyclic.unifies s fact).settled acyclic settled (closed.symm ▸ ground) with none | same
  · rw [none, if_neg]
    intro equal
    refine (acyclic.unify?_eq_none_iff s fact).mp none ⟨_, acyclic.satisfies, ?_⟩
    rwa [← apply_eq_bind, ← apply_eq_bind, closed]
  · have equal := acyclic.apply_beq same
    rw [closed] at equal
    rw [same, if_pos equal]

end Substitution

namespace Search

variable {limits : Limits} {θ : Substitution} {literal : Term} {facts : List Term}

/-- Facts that match without binding anything are an answer if there is one among them. -/
theorem matching_settled {check : Bool}
    (settled : ∀ fact ∈ facts, θ.unify? check literal fact = none ∨
      θ.unify? check literal fact = some θ)
    (present : ∃ fact ∈ facts, θ.unify? check literal fact = some θ) :
    ∃ rest, matching check literal θ facts = .answer θ rest := by
  induction facts with
  | nil => simp at present
  | cons fact others ih =>
    rw [matching]
    rcases settled fact List.mem_cons_self with none | same
    · rw [none]
      refine ih (fun other member => settled other (List.mem_cons_of_mem _ member)) ?_
      obtain ⟨other, member, found⟩ := present
      rcases List.mem_cons.mp member with rfl | later
      · cases none.symm.trans found
      · exact ⟨other, later, found⟩
    · rw [same]
      exact ⟨_, rfl⟩

end Search

namespace BeliefBase

variable {base after : BeliefBase} {θ : Substitution} {literal fact : Term}

/-- What has been asserted is there. -/
theorem contains_of_assert {new : Bool} (done : base.assert fact = .ok (new, after)) :
    after.contains fact = true := by
  obtain ⟨key, filed, rest⟩ := bind_eq_ok_iff.mp done
  obtain ⟨under, -⟩ := filing_ok filed
  split at rest
  next old =>
    cases rest
    exact old
  next =>
    cases rest
    rw [Groups.push, contains_put, if_pos under]
    exact factSet_of_mem (List.mem_append_right _ List.mem_cons_self)

/-- What is contained has a name and an arity, and among the facts of these it equals one. -/
theorem exists_of_contains (believed : base.contains fact = true) :
    ∃ key, fact.indicator? = some key ∧ ∃ other ∈ base.groups.get key, (other == fact) = true := by
  unfold contains factsLike at believed
  split at believed
  next key filed => exact ⟨key, filed, List.any_eq_true.mp believed⟩
  next => cases believed

/-- A believed literal is answered at once, and nothing is bound. -/
theorem Ordered.first_query (ordered : base.Ordered) (acyclic : θ.Acyclic) {limits : Limits}
    (deep : 0 ≤ limits.maxDepth) (settled : (θ.apply literal).isGround = true)
    (other : θ.apply literal ≠ Term.falsity) (believed : base.contains (θ.apply literal) = true) :
    base.first (Search.query limits literal θ) = (.ok (some θ), base) := by
  obtain ⟨levels, enough⟩ : ∃ levels, (limits.maxDepth + 1).toNat = levels + 1 :=
    ⟨limits.maxDepth.toNat, by omega⟩
  have walks := acyclic.walks literal
  obtain ⟨key, instanceKey, fact, member, equal⟩ := exists_of_contains believed
  rw [← walks.apply_eq acyclic (.refl θ)] at settled other equal instanceKey
  have filed := walks.indicator?_of_apply instanceKey
  have matched : ∀ fact ∈ base.groups.get key, θ.unify? limits.occursCheck (θ.walk literal) fact =
      if θ.apply (θ.walk literal) == fact then some θ else none := fun fact member =>
    acyclic.unify?_settled settled (ordered.ground fact (ordered.mem_get_iff.mp member).1) _
  have found : θ.unify? limits.occursCheck (θ.walk literal) fact = some θ := by
    rw [matched fact member, if_pos (BEq.symm equal)]
  obtain ⟨rest, answered⟩ := Search.matching_settled (fun fact member => by
    rw [matched fact member]
    split <;> simp) ⟨fact, member, found⟩
  rw [Search.query, enough, Search.queryWithin, Search.asking]
  split
  next => rfl
  next same =>
    rw [same] at other
    exact absurd (apply_atom θ "false") other
  next =>
    rw [filed, BeliefBase.first, BeliefBase.next, answered]
    rfl

end BeliefBase

namespace Agent

variable {agent after : Agent} {θ : Substitution} {literal : Term}

/-- Asking for what is believed succeeds, binds nothing and changes nothing. -/
theorem execute_test_believed (ordered : agent.beliefs.Ordered) (acyclic : θ.Acyclic)
    (deep : 0 ≤ agent.limits.maxDepth) (settled : (θ.apply literal).isGround = true)
    (other : θ.apply literal ≠ Term.falsity)
    (believed : agent.beliefs.contains (θ.apply literal) = true) :
    (execute θ (.statement (.test literal))).run.run agent =
      (.ok (.proceeded θ []), agent) := by
  have answered : (searching (·.first (Search.query agent.limits literal θ))).run.run agent =
      (.ok (some θ), agent) := by
    show ((ofExcept (agent.beliefs.first _).1 : AgentM _).run.run
      { agent with beliefs := (agent.beliefs.first _).2 }) = _
    rw [ordered.first_query acyclic deep settled other believed]
    rfl
  show (searching (·.first (Search.query agent.limits literal θ)) >>= _).run.run agent = _
  rw [run_bind, answered]
  rfl

/-- Adding a belief asserts it and leaves the limits; else it only posts and reports. -/
theorem exists_of_run_addBelief {fact : Term} {new : Bool}
    (ran : (addBelief fact).run.run agent = (.ok new, after)) :
    agent.beliefs.assert fact = .ok (new, after.beliefs) ∧ after.limits = agent.limits := by
  obtain ⟨value, middle, revised, posting⟩ := exists_of_run_bind ran
  obtain ⟨log, whole⟩ := run_revise (·.asserting fact) agent
  obtain ⟨outcome, rfl⟩ := Prod.mk.inj (whole.symm.trans revised)
  have asserted := BeliefBase.asserting_ok outcome
  cases value with
  | false =>
    cases posting
    exact ⟨asserted, rfl⟩
  | true =>
    obtain ⟨_, posted, announced, same⟩ := exists_of_run_bind posting
    cases same
    obtain ⟨further, whole⟩ := run_post (.believed fact)
      { agent with beliefs := (agent.beliefs.asserting fact).base, journal.log := log }
    rw [whole] at announced
    split at announced
    next =>
      cases announced
      exact ⟨asserted, rfl⟩
    next => cases announced

/-- What a frame adds it can ask for, if there is nothing to compute in the literal: the addition is
answered from the beliefs, and the answer binds nothing. -/
theorem execute_test_added (ordered : agent.beliefs.Ordered) (acyclic : θ.Acyclic)
    (deep : 0 ≤ agent.limits.maxDepth) (plain : (θ.apply literal).computes = false)
    (other : θ.apply literal ≠ Term.falsity) {effect : Effect}
    (ran : (execute θ (.statement (.add literal))).run.run agent = (.ok effect, after)) :
    effect = .proceeded θ [] ∧
      (execute θ (.statement (.test literal))).run.run after = (.ok (.proceeded θ []), after) := by
  have adds : (resolve θ literal >>= fun fact => addBelief fact >>= fun _ =>
      pure (Effect.proceeded θ [])).run.run agent = (.ok effect, after) := ran
  obtain ⟨fact, _, resolved, adding⟩ := exists_of_run_bind adds
  obtain ⟨new, middle, added, same⟩ := exists_of_run_bind adding
  cases same
  obtain ⟨folded, ⟨⟩⟩ := Prod.mk.inj resolved
  rw [Substitution.resolve, (Term.fold_eq_self_iff _).mpr plain] at folded
  cases folded
  obtain ⟨asserted, limits⟩ := exists_of_run_addBelief added
  obtain ⟨key, filed, -⟩ := BeliefBase.assert_ok asserted
  exact ⟨rfl, execute_test_believed (ordered.assert asserted) acyclic (limits ▸ deep)
    (BeliefBase.filing_ok filed).2 other (BeliefBase.contains_of_assert asserted)⟩

/-- With the occurs check on, what is answered to a question gives terms over its named variables the
values that they have under the bindings that were found. -/
theorem exists_of_query {formula : Formula} {shown : List (List (Variable × Term))}
    (checked : agent.limits.occursCheck = true)
    (ran : (query formula).run.run agent = (.ok shown, after)) :
    ∃ found : List Substitution, shown = found.map (·.restrict formula.namedVariables) ∧
      ∀ θ ∈ found, θ.Acyclic ∧ ∀ term : Term, (∀ v ∈ term.vars, v ∈ formula.namedVariables) →
        (θ.shown formula.namedVariables).apply term = θ.apply term := by
  have kept : (Search.solve agent.limits formula .empty).Kept Acyclic := by
    refine Search.solve_kept (fun θ s t θ' acyclic unified => ?_) formula acyclic_empty
    rw [checked] at unified
    exact acyclic.of_unify? unified
  obtain ⟨found, between, asked, rest⟩ := exists_of_run_bind ran
  cases rest
  have answered : (agent.beliefs.answers (Search.solve agent.limits formula .empty)).1 = .ok found :=
    congrArg Prod.fst asked
  have all := BeliefBase.all_of_answers (Prod.ext answered rfl)
  refine ⟨found, rfl, fun θ member => ?_⟩
  have acyclic := BeliefBase.kept_of_all kept θ (all ▸ member)
  exact ⟨acyclic, fun term known => acyclic.apply_shown known⟩

section Reaching

variable {source : Variable → Prop} {limits : Limits} {environment : ActionTable → Prop}

/-- So it is in every frame of an intention. -/
theorem Reachable.asks_added (checked : limits.occursCheck = true)
    (deep : 0 ≤ agent.limits.maxDepth)
    (replies : ∀ actions, environment actions → actions.RepliesGround) {intention : Intention}
    (reachable : Reachable source limits environment agent (some intention))
    (lacks : ∀ plan ∈ agent.plans, Statement.lacksAll "findall" plan.body = true)
    {frame : Frame} (member : frame ∈ intention.frames)
    (plain : (frame.bindings.apply literal).computes = false)
    (other : frame.bindings.apply literal ≠ Term.falsity) {effect : Effect}
    (ran : (execute frame.bindings (.statement (.add literal))).run.run agent =
      (.ok effect, after)) :
    effect = .proceeded frame.bindings [] ∧
      (execute frame.bindings (.statement (.test literal))).run.run after =
        (.ok (.proceeded frame.bindings []), after) := by
  have named := (reachable.inOrder replies).named
  have acyclic := (reachable.acyclic checked replies lacks frame member).1
  exact execute_test_added named.beliefs acyclic deep plain other ran

/-- A goal whose plan adds a literal with something to compute and asks for it. -/
def reckoning : Program where
  beliefs := []
  rules := []
  goals := [.atom "g"]
  plans := [⟨.goal (.atom "g"), .literal Term.truth,
    [.add (.compound "n" [.compound "+" [.number (.int 1), .number (.int 2)]]),
      .test (.compound "n" [.compound "+" [.number (.int 1), .number (.int 2)]])], none⟩]

theorem isWritten_reckoning : reckoning.IsWritten := by
  refine ⟨nofun, ?_, ?_⟩ <;> intro item member v occurs <;>
    rw [List.mem_singleton.mp member] at occurs <;> cases occurs

/-- Adding it succeeds, and asking for it fails right afterwards. -/
theorem reachable_reckons : ∃ agent intention frame after last,
    Reachable Variable.IsWritten ⟨1000, 1000, true⟩ (Eq .empty) agent (some intention) ∧
      intention.frames = [frame] ∧
      frame.tasks =
        [.statement (.add (.compound "n" [.compound "+" [.number (.int 1), .number (.int 2)]])),
          .statement (.test (.compound "n" [.compound "+" [.number (.int 1), .number (.int 2)]]))] ∧
      (execute frame.bindings (.statement (.add
        (.compound "n" [.compound "+" [.number (.int 1), .number (.int 2)]])))).run.run agent =
          (.ok (.proceeded frame.bindings []), after) ∧
      (execute frame.bindings (.statement (.test
        (.compound "n" [.compound "+" [.number (.int 1), .number (.int 2)]])))).run.run after =
          (.ok .failed, last) := by
  have created : Reachable Variable.IsWritten ⟨1000, 1000, true⟩ (Eq .empty) _ none :=
    .created reckoning isWritten_reckoning.over rfl "a" 0 ⟨[], [], []⟩
  have began := created.turned (.began rfl rfl rfl)
  exact ⟨_, _, _, _, _, began, rfl, rfl, rfl, rfl⟩

end Reaching

end Agent

end AgentSpeak
