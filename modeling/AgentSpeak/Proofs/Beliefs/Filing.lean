import AgentSpeak.Beliefs.Search
import AgentSpeak.Proofs.Fault
import AgentSpeak.Proofs.Term.Instance

namespace AgentSpeak

namespace Groups

variable {α : Type} {groups : Groups α} {key : Indicator} {item : α} {items : List α}
  {filedUnder : α → Option Indicator}

/-- Each group has its own key, and each item in it is filed under this key. -/
structure Filed (filedUnder : α → Option Indicator) (groups : Groups α) : Prop where
  apart : (groups.map Prod.fst).Nodup
  own : ∀ key items, (key, items) ∈ groups → ∀ item ∈ items, filedUnder item = some key

theorem filed_nil : Filed filedUnder ([] : Groups α) :=
  ⟨List.nodup_nil, by simp⟩

private theorem keys_put (key : Indicator) (items : List α) (groups : Groups α) :
    (put key items groups).map Prod.fst =
      if key ∈ groups.map Prod.fst then groups.map Prod.fst else groups.map Prod.fst ++ [key] := by
  induction groups with
  | nil => simp [put]
  | cons entry rest ih =>
    obtain ⟨other, old⟩ := entry
    unfold put
    split
    next same => simp [same]
    next different =>
      rw [List.map_cons, ih, List.map_cons]
      split
      next present => rw [if_pos (List.mem_cons_of_mem _ present)]
      next absent =>
        rw [if_neg, List.cons_append]
        rw [List.mem_cons, not_or]
        exact ⟨fun same => different same.symm, absent⟩

private theorem mem_put {entry : Indicator × List α} (member : entry ∈ put key items groups) :
    entry = (key, items) ∨ entry ∈ groups := by
  induction groups with
  | nil => simpa [put] using member
  | cons first rest ih =>
    obtain ⟨other, old⟩ := first
    unfold put at member
    split at member
    next same =>
      rcases List.mem_cons.mp member with here | later
      · exact .inl here
      · exact .inr (List.mem_cons_of_mem _ later)
    next different =>
      rcases List.mem_cons.mp member with here | later
      · exact .inr (here ▸ List.mem_cons_self)
      · exact (ih later).imp id (List.mem_cons_of_mem _)

theorem Filed.put (filed : groups.Filed filedUnder)
    (own : ∀ item ∈ items, filedUnder item = some key) :
    (Groups.put key items groups).Filed filedUnder := by
  constructor
  · rw [keys_put]
    split
    next => exact filed.apart
    next absent =>
      rw [List.nodup_append]
      refine ⟨filed.apart, by simp, ?_⟩
      intro a member b last same
      rw [List.mem_singleton] at last
      exact absent (last ▸ same ▸ member)
  · intro other others member item inside
    rcases mem_put member with same | old
    · cases same
      exact own item inside
    · exact filed.own other others old item inside

theorem Filed.exists_key (filed : groups.Filed filedUnder) (member : item ∈ groups.toList) :
    ∃ key, filedUnder item = some key := by
  obtain ⟨⟨key, items⟩, entry, inside⟩ := List.mem_flatMap.mp member
  exact ⟨key, filed.own key items entry item inside⟩

theorem Filed.lookup_of_mem (filed : groups.Filed filedUnder)
    (entry : (key, items) ∈ groups) : groups.lookup key = some items := by
  obtain ⟨before, after, split⟩ := List.append_of_mem entry
  refine List.lookup_eq_some_iff.mpr ⟨before, after, split, fun earlier member => ?_⟩
  have apart := filed.apart
  rw [split, List.map_append, List.nodup_append] at apart
  have different := apart.2.2 earlier.1 (List.mem_map.mpr ⟨earlier, member, rfl⟩) key (by simp)
  simpa using different.symm

private theorem lookup_of_mem_get (member : item ∈ groups.get key) :
    ∃ items, groups.lookup key = some items ∧ item ∈ items := by
  rw [get] at member
  cases found : groups.lookup key with
  | none => simp [found] at member
  | some items =>
    rw [found, Option.getD_some] at member
    exact ⟨items, rfl, member⟩

theorem mem_toList_of_mem_get (member : item ∈ groups.get key) : item ∈ groups.toList := by
  obtain ⟨items, found, inside⟩ := lookup_of_mem_get member
  obtain ⟨before, after, split, -⟩ := List.lookup_eq_some_iff.mp found
  exact List.mem_flatMap.mpr ⟨(key, items), by simp [split], inside⟩

/-- What is read from one group is all that is filed under its key. -/
theorem Filed.mem_get_iff (filed : groups.Filed filedUnder) :
    item ∈ groups.get key ↔ item ∈ groups.toList ∧ filedUnder item = some key := by
  constructor
  · intro member
    refine ⟨mem_toList_of_mem_get member, ?_⟩
    obtain ⟨items, found, inside⟩ := lookup_of_mem_get member
    obtain ⟨before, after, split, -⟩ := List.lookup_eq_some_iff.mp found
    exact filed.own key items (by simp [split]) item inside
  · rintro ⟨member, under⟩
    obtain ⟨⟨other, items⟩, entry, inside⟩ := List.mem_flatMap.mp member
    cases (filed.own other items entry item inside).symm.trans under
    rw [get, filed.lookup_of_mem entry, Option.getD_some]
    exact inside

end Groups

namespace BeliefBase

section

variable {base after : BeliefBase} {fact pattern : Term} {facts : List Term}

/-- The facts are ground, and facts and rules are in the groups of their name and arity. -/
structure Ordered (base : BeliefBase) : Prop where
  facts : base.groups.Filed Term.indicator?
  rules : base.ruleGroups.Filed fun rule => rule.head.indicator?
  ground : ∀ fact ∈ base.facts, fact.isGround = true

theorem ordered_empty : empty.Ordered :=
  ⟨Groups.filed_nil, Groups.filed_nil, by simp [BeliefBase.facts, empty, Groups.toList]⟩

theorem Ordered.renamed (ordered : base.Ordered) (n : Nat) :
    Ordered { base with renamings := n } :=
  ⟨ordered.facts, ordered.rules, ordered.ground⟩

theorem Ordered.mem_get_iff (ordered : base.Ordered) {key : Indicator} :
    fact ∈ base.groups.get key ↔ fact ∈ base.facts ∧ fact.indicator? = some key :=
  ordered.facts.mem_get_iff

theorem Ordered.mem_rules_get_iff (ordered : base.Ordered) {key : Indicator} {rule : Rule} :
    rule ∈ base.ruleGroups.get key ↔ rule ∈ base.rules ∧ rule.head.indicator? = some key :=
  ordered.rules.mem_get_iff

theorem Ordered.rules_get_eq_nil (ordered : base.Ordered) {key : Indicator}
    (unruled : ∀ rule ∈ base.rules, rule.head.indicator? ≠ some key) :
    base.ruleGroups.get key = [] := by
  rw [List.eq_nil_iff_forall_not_mem]
  intro rule member
  obtain ⟨present, own⟩ := ordered.mem_rules_get_iff.mp member
  exact unruled rule present own

theorem Ordered.mem_factsLike (ordered : base.Ordered) {term : Term}
    (member : fact ∈ base.factsLike term) :
    fact ∈ base.facts ∧ fact.indicator? = term.indicator? := by
  unfold factsLike at member
  split at member
  next key filed =>
    rw [filed]
    exact ordered.mem_get_iff.mp member
  next => simp at member

theorem mem_facts_of_factsLike {term : Term} (member : fact ∈ base.factsLike term) :
    fact ∈ base.facts := by
  unfold factsLike at member
  split at member
  next => exact Groups.mem_toList_of_mem_get member
  next => cases member

theorem mem_facts_of_retract {occursCheck : Bool}
    (member : fact ∈ (base.retract occursCheck pattern).1) : fact ∈ base.facts := by
  unfold BeliefBase.retract at member
  dsimp only at member
  split at member
  next => cases member
  next => exact mem_facts_of_factsLike (List.mem_filter.mp member).1

/-- A base stays ordered when one group gets other facts that belong there. -/
theorem Ordered.put (ordered : base.Ordered) {key : Indicator}
    (own : ∀ fact ∈ facts, fact.indicator? = some key ∧ fact.isGround = true) :
    Ordered { base with groups := base.groups.put key facts } where
  facts := ordered.facts.put fun fact member => (own fact member).1
  rules := ordered.rules
  ground := by
    intro fact member
    obtain ⟨entry, found, inside⟩ := List.mem_flatMap.mp member
    rcases Groups.mem_put found with same | old
    · rw [same] at inside
      exact (own fact inside).2
    · exact ordered.ground fact (List.mem_flatMap.mpr ⟨entry, old, inside⟩)

theorem Ordered.withFactsLike (ordered : base.Ordered) {term : Term}
    (kept : ∀ fact ∈ facts, fact ∈ base.factsLike term) :
    (base.withFactsLike term facts).Ordered := by
  unfold BeliefBase.withFactsLike
  split
  next key filed =>
    refine ordered.put fun fact member => ?_
    obtain ⟨believed, same⟩ := ordered.mem_factsLike (kept fact member)
    exact ⟨same.trans filed, ordered.ground fact believed⟩
  next => exact ordered

theorem filing_ok {key : Indicator} (filed : filing fact = .ok key) :
    fact.indicator? = some key ∧ fact.isGround = true := by
  unfold filing at filed
  split at filed
  next => cases filed
  next other found =>
    split at filed
    next ground =>
      cases filed
      exact ⟨found, ground⟩
    next => cases filed

/-- A fact that can be filed is added, or it was there before. -/
theorem assert_ok {new : Bool} (done : base.assert fact = .ok (new, after)) :
    ∃ key, filing fact = .ok key ∧
      (new = false ∧ after = base ∨
        new = true ∧ after = { base with groups := base.groups.push key fact }) := by
  obtain ⟨key, filed, rest⟩ := bind_eq_ok_iff.mp done
  refine ⟨key, filed, ?_⟩
  split at rest
  next =>
    cases rest
    exact .inl ⟨rfl, rfl⟩
  next =>
    cases rest
    exact .inr ⟨rfl, rfl⟩

/-- A fact that nothing in the base equals goes behind the others of its name and arity. -/
theorem assert_new {key : Indicator} (filed : filing fact = .ok key)
    (new : base.contains fact = false) :
    base.assert fact = .ok (true, { base with groups := base.groups.push key fact }) := by
  rw [BeliefBase.assert, filed]
  exact if_neg (by simp [new])

theorem Ordered.assert (ordered : base.Ordered) {new : Bool}
    (done : base.assert fact = .ok (new, after)) : after.Ordered := by
  obtain ⟨key, filed, ⟨-, rfl⟩ | ⟨-, rfl⟩⟩ := assert_ok done
  · exact ordered
  · refine ordered.put fun other member => ?_
    rcases List.mem_append.mp member with old | last
    · obtain ⟨believed, under⟩ := ordered.mem_get_iff.mp old
      exact ⟨under, ordered.ground other believed⟩
    · rw [List.mem_singleton.mp last]
      exact filing_ok filed

theorem Ordered.retract (ordered : base.Ordered) (occursCheck : Bool) (pattern : Term) :
    (base.retract occursCheck pattern).2.Ordered := by
  unfold BeliefBase.retract
  simp only
  split
  next => exact ordered
  next => exact ordered.withFactsLike fun fact member => (List.mem_filter.mp member).1

theorem splitFirst?_some {occursCheck : Bool} {θ θ' : Substitution} {others : List Term}
    (found : splitFirst? occursCheck pattern θ facts = some (fact, θ', others)) :
    fact ∈ facts ∧ θ.unify? occursCheck pattern fact = some θ' ∧
      ∀ other ∈ others, other ∈ facts := by
  induction facts generalizing others with
  | nil => cases found
  | cons first rest ih =>
    unfold splitFirst? at found
    split at found
    next extended unified =>
      cases found
      exact ⟨List.mem_cons_self, unified, fun other member => List.mem_cons_of_mem _ member⟩
    next failed =>
      obtain ⟨⟨chosen, extended, left⟩, later, same⟩ := Option.map_eq_some_iff.mp found
      cases same
      obtain ⟨chosenMember, unified, leftMember⟩ := ih later
      refine ⟨List.mem_cons_of_mem _ chosenMember, unified, fun other member => ?_⟩
      rcases List.mem_cons.mp member with here | further
      · exact here ▸ List.mem_cons_self
      · exact List.mem_cons_of_mem _ (leftMember other further)

theorem Ordered.remove? (ordered : base.Ordered) {occursCheck : Bool} {θ θ' : Substitution}
    (done : base.remove? occursCheck pattern θ = some (fact, θ', after)) : after.Ordered := by
  obtain ⟨⟨chosen, extended, others⟩, found, same⟩ := Option.map_eq_some_iff.mp done
  cases same
  exact ordered.withFactsLike (splitFirst?_some found).2.2

section Revising

variable {property : BeliefBase → Prop} {occursCheck new : Bool} {θ : Substitution}
  {dropped : List Term}

/-- An addition leaves the base as it was, or with the fact added, also if its report fails. -/
theorem asserting_base (same : property base)
    (added : ∀ new after, base.assert fact = .ok (new, after) → property after) :
    property (base.asserting fact).base := by
  unfold asserting
  split
  next => exact same
  next after done => exact added false after done
  next after done => exact added true after done

theorem asserting_of_assert (done : base.assert fact = .ok (new, after)) :
    (base.asserting fact).base = after := by
  unfold asserting
  rw [done]
  cases new <;> rfl

theorem removing_base (same : property base)
    (removed : ∀ fact extended after,
      base.remove? occursCheck pattern θ = some (fact, extended, after) → property after) :
    property (base.removing occursCheck pattern θ).base := by
  unfold removing
  split
  next => exact same
  next fact extended after done => exact removed fact extended after done

/-- A replacement leaves the base as it was, or without the facts like the new one, or with the new one
added as well. -/
theorem replacing_base (same : property base)
    (cleared : property (base.retract occursCheck (anyLike fact)).2)
    (replaced : ∀ new after, (base.retract occursCheck (anyLike fact)).2.assert fact =
      .ok (new, after) → property after) :
    property (base.replacing occursCheck fact).base := by
  unfold replacing
  split
  next => exact same
  next =>
    dsimp only
    split
    next => exact cleared
    next => exact asserting_base cleared replaced

theorem announced_ok {α : Type} {mark : String} {facts : List Term} {result value : α}
    (done : (announced mark facts result base).outcome = .ok value) :
    (∀ fact ∈ facts, fact.isWritable = true) ∧ result = value := by
  simp only [announced] at done
  split at done
  next writable => exact ⟨List.all_eq_true.mp writable, Except.ok.inj done⟩
  next => cases done

theorem announced_of_writable {α : Type} {facts : List Term}
    (writable : ∀ fact ∈ facts, fact.isWritable = true) (mark : String) (result : α) :
    (announced mark facts result base).outcome = .ok result :=
  if_pos (List.all_eq_true.mpr writable)

theorem announced_error {α : Type} {mark : String} {facts : List Term} {result : α} {fault : Fault}
    (failed : (announced mark facts result base).outcome = .error fault) :
    fault = .unwritable ∧ ∃ fact ∈ facts, fact.isWritable = false := by
  simp only [announced] at failed
  split at failed
  next => cases failed
  next unwritable => exact ⟨(Except.error.inj failed).symm, by simpa using unwritable⟩

theorem asserting_ok (done : (base.asserting fact).outcome = .ok new) :
    base.assert fact = .ok (new, (base.asserting fact).base) := by
  unfold asserting at done ⊢
  split at done
  next => cases done
  next after found =>
    cases done
    exact found
  next after found =>
    obtain ⟨-, rfl⟩ := announced_ok done
    exact found

theorem outcome_retracting (base : BeliefBase) (occursCheck : Bool) (pattern : Term) :
    (base.retracting occursCheck pattern).outcome =
      if (base.retract occursCheck pattern).1.all Term.isWritable then
        .ok (base.retract occursCheck pattern).1
      else .error .unwritable := rfl

theorem retracting_ok (done : (base.retracting occursCheck pattern).outcome = .ok dropped) :
    (base.retract occursCheck pattern).1 = dropped ∧ ∀ fact ∈ dropped, fact.isWritable = true := by
  obtain ⟨writable, rfl⟩ := announced_ok done
  exact ⟨rfl, writable⟩

theorem removing_ok {found : Option Substitution}
    (done : (base.removing occursCheck pattern θ).outcome = .ok found) :
    (found = none ∧ (base.removing occursCheck pattern θ).base = base) ∨
      ∃ fact extended, found = some extended ∧ base.remove? occursCheck pattern θ =
        some (fact, extended, (base.removing occursCheck pattern θ).base) := by
  unfold removing at done ⊢
  split at done
  next =>
    cases done
    exact .inl ⟨rfl, rfl⟩
  next fact extended after removed =>
    obtain ⟨-, rfl⟩ := announced_ok done
    exact .inr ⟨fact, extended, rfl, removed⟩

/-- Bindings that come of a removal match a fact. -/
theorem removing_some {extended : Substitution}
    (done : (base.removing occursCheck pattern θ).outcome = .ok (some extended)) :
    ∃ fact ∈ base.factsLike (θ.walk pattern),
      θ.unify? occursCheck pattern fact = some extended := by
  obtain ⟨absent, -⟩ | ⟨fact, _, ⟨⟩, removed⟩ := removing_ok done
  · cases absent
  · obtain ⟨⟨chosen, bindings, others⟩, found, same⟩ := Option.map_eq_some_iff.mp removed
    obtain ⟨rfl, bound⟩ := Prod.mk.inj same
    obtain ⟨member, unified, -⟩ := splitFirst?_some found
    exact ⟨chosen, member, (Prod.mk.inj bound).1 ▸ unified⟩

/-- A replacement is refused, or it breaks off at an old fact without a text, or the new fact is added
when the facts like it are gone. -/
theorem replacing_cases {cleared : BeliefBase}
    (retracted : base.retract occursCheck (anyLike fact) = (dropped, cleared)) :
    (∃ fault, base.replacing occursCheck fact = ⟨.error fault, base, []⟩) ∨
      (∃ old ∈ dropped, old.isWritable = false ∧
        base.replacing occursCheck fact = announced "-" dropped dropped cleared) ∨
      ∃ key, filing fact = .ok key ∧ (∀ old ∈ dropped, old.isWritable = true) ∧
        base.replacing occursCheck fact =
          ⟨(cleared.asserting fact).outcome.map fun _ => dropped, (cleared.asserting fact).base,
            (announced "-" dropped dropped cleared).reports ++ (cleared.asserting fact).reports⟩ := by
  have announces : base.retracting occursCheck (anyLike fact) =
      announced "-" dropped dropped cleared := by
    rw [retracting, retracted]
  unfold replacing
  rw [announces]
  cases filed : filing fact with
  | error fault => exact .inl ⟨fault, rfl⟩
  | ok key =>
    refine .inr ?_
    dsimp only
    cases outcome : (announced "-" dropped dropped cleared).outcome with
    | error fault =>
      obtain ⟨-, old, member, unwritable⟩ := announced_error outcome
      exact .inl ⟨old, member, unwritable, rfl⟩
    | ok removed =>
      obtain ⟨writable, rfl⟩ := announced_ok outcome
      exact .inr ⟨key, rfl, writable, rfl⟩

/-- An addition that fails for another reason than a text is none. -/
theorem asserting_refused {fault : Fault} (failed : (base.asserting fact).outcome = .error fault) :
    fault = .unwritable ∨ (base.asserting fact).base = base := by
  unfold asserting at failed ⊢
  split at failed
  next => exact .inr rfl
  next => cases failed
  next => exact .inl (announced_error failed).1

/-- A literal with a text is added, or the base stays as it is. -/
theorem asserting_unchanged {fault : Fault} (writable : fact.isWritable = true)
    (failed : (base.asserting fact).outcome = .error fault) :
    (base.asserting fact).base = base := by
  unfold asserting at failed ⊢
  split at failed
  next => rfl
  next => cases failed
  next =>
    obtain ⟨-, other, member, unwritable⟩ := announced_error failed
    rw [List.mem_singleton.mp member, writable] at unwritable
    cases unwritable

theorem unwritable_of_asserting {key : Indicator} {fault : Fault} (filed : filing fact = .ok key)
    (failed : (base.asserting fact).outcome = .error fault) : fault = .unwritable := by
  unfold asserting at failed
  split at failed
  next refused =>
    obtain ⟨_, absent⟩ : ∃ added, base.assert fact = .ok added := by
      rw [BeliefBase.assert, filed]
      exact ⟨_, (apply_ite Except.ok _ _ _).symm⟩
    cases refused.symm.trans absent
  next => cases failed
  next => exact (announced_error failed).1

theorem removing_refused {fault : Fault}
    (failed : (base.removing occursCheck pattern θ).outcome = .error fault) :
    fault = .unwritable := by
  unfold removing at failed
  split at failed
  next => cases failed
  next => exact (announced_error failed).1

theorem replacing_refused {fault : Fault}
    (failed : (base.replacing occursCheck fact).outcome = .error fault) :
    fault = .unwritable ∨ (base.replacing occursCheck fact).base = base := by
  rcases retracted : base.retract occursCheck (anyLike fact) with ⟨dropped, cleared⟩
  rcases replacing_cases retracted with ⟨_, same⟩ | ⟨_, -, -, same⟩ | ⟨key, filed, -, same⟩
  · exact .inr (by rw [same])
  · rw [same] at failed
    exact .inl (announced_error failed).1
  · rw [same] at failed
    cases outcome : (cleared.asserting fact).outcome with
    | ok new => simp [outcome, Except.map] at failed
    | error broken =>
      simp only [outcome, Except.map, Except.error.injEq] at failed
      exact .inl (failed ▸ unwritable_of_asserting filed outcome)

/-- A fact that can be filed is added behind the removal of all facts like it. -/
theorem replacing_ok (done : (base.replacing occursCheck fact).outcome = .ok dropped) :
    ∃ key new, filing fact = .ok key ∧ (base.retract occursCheck (anyLike fact)).1 = dropped ∧
      (base.retract occursCheck (anyLike fact)).2.assert fact =
        .ok (new, (base.replacing occursCheck fact).base) := by
  unfold replacing at done ⊢
  split at done
  next => cases done
  next key filed =>
    dsimp only at done ⊢
    split at done
    next fault failed =>
      rw [failed] at done
      cases done
    next removed cleared =>
      obtain ⟨new, added, rfl⟩ := map_eq_ok_iff.mp done
      exact ⟨key, new, filed, (retracting_ok cleared).1, asserting_ok added⟩

theorem Ordered.asserting (ordered : base.Ordered) (fact : Term) :
    (base.asserting fact).base.Ordered :=
  asserting_base ordered fun _ _ done => ordered.assert done

theorem Ordered.retracting (ordered : base.Ordered) (occursCheck : Bool) (pattern : Term) :
    (base.retracting occursCheck pattern).base.Ordered :=
  ordered.retract occursCheck pattern

theorem Ordered.removing (ordered : base.Ordered) (occursCheck : Bool) (pattern : Term)
    (θ : Substitution) : (base.removing occursCheck pattern θ).base.Ordered :=
  removing_base ordered fun _ _ _ done => ordered.remove? done

theorem Ordered.replacing (ordered : base.Ordered) (occursCheck : Bool) (fact : Term) :
    (base.replacing occursCheck fact).base.Ordered := by
  have cleared := ordered.retract occursCheck (anyLike fact)
  exact replacing_base ordered cleared fun _ _ done => cleared.assert done

end Revising

theorem Ordered.addRule (ordered : base.Ordered) (rule : Rule) : (base.addRule rule).Ordered := by
  unfold BeliefBase.addRule
  split
  next key filed =>
    refine ⟨ordered.facts, ordered.rules.put fun other member => ?_, ordered.ground⟩
    rcases List.mem_append.mp member with old | last
    · exact (ordered.mem_rules_get_iff.mp old).2
    · rw [List.mem_singleton.mp last]
      exact filed
  next => exact ordered

theorem mem_rules_addRule {rule other : Rule} (member : other ∈ (base.addRule rule).rules) :
    other ∈ base.rules ∨ other = rule := by
  unfold BeliefBase.addRule at member
  split at member
  next key filed =>
    obtain ⟨entry, found, inside⟩ := List.mem_flatMap.mp member
    rcases Groups.mem_put found with same | old
    · rw [same] at inside
      rcases List.mem_append.mp inside with before | last
      · exact .inl (Groups.mem_toList_of_mem_get before)
      · exact .inr (List.mem_singleton.mp last)
    · exact .inl (List.mem_flatMap.mpr ⟨entry, old, inside⟩)
  next => exact .inl member

theorem mem_rules_addRules {rules : List Rule} {rule : Rule}
    (member : rule ∈ (rules.foldl addRule base).rules) : rule ∈ base.rules ∨ rule ∈ rules := by
  induction rules generalizing base with
  | nil => exact .inl member
  | cons first rest ih =>
    rcases ih member with before | later
    · rcases mem_rules_addRule before with old | new
      · exact .inl old
      · exact .inr (new ▸ List.mem_cons_self)
    · exact .inr (List.mem_cons_of_mem _ later)

theorem renamings_addRule (base : BeliefBase) (rule : Rule) :
    (base.addRule rule).renamings = base.renamings := by
  unfold BeliefBase.addRule
  split <;> rfl

theorem renamings_addRules (rules : List Rule) (base : BeliefBase) :
    (rules.foldl addRule base).renamings = base.renamings := by
  induction rules generalizing base with
  | nil => rfl
  | cons rule rest ih => exact (ih (base.addRule rule)).trans (base.renamings_addRule rule)

/-- The rules are the same, and how many times one was renamed apart. -/
structure SameRules (base after : BeliefBase) : Prop where
  groups : after.ruleGroups = base.ruleGroups
  renamings : after.renamings = base.renamings

theorem sameRules_withFactsLike (base : BeliefBase) (term : Term) (facts : List Term) :
    SameRules base (base.withFactsLike term facts) := by
  unfold BeliefBase.withFactsLike
  split <;> exact ⟨rfl, rfl⟩

theorem sameRules_assert {new : Bool} (done : base.assert fact = .ok (new, after)) :
    SameRules base after := by
  obtain ⟨key, -, ⟨-, rfl⟩ | ⟨-, rfl⟩⟩ := assert_ok done <;> exact ⟨rfl, rfl⟩

theorem sameRules_retract (base : BeliefBase) (occursCheck : Bool) (pattern : Term) :
    SameRules base (base.retract occursCheck pattern).2 := by
  unfold BeliefBase.retract
  dsimp only
  split
  next => exact ⟨rfl, rfl⟩
  next => exact sameRules_withFactsLike ..

theorem sameRules_remove? {occursCheck : Bool} {θ θ' : Substitution}
    (done : base.remove? occursCheck pattern θ = some (fact, θ', after)) :
    SameRules base after := by
  obtain ⟨_, -, same⟩ := Option.map_eq_some_iff.mp done
  cases same
  exact sameRules_withFactsLike ..

theorem sameRules_asserting (base : BeliefBase) (fact : Term) :
    SameRules base (base.asserting fact).base :=
  asserting_base ⟨rfl, rfl⟩ fun _ _ done => sameRules_assert done

theorem sameRules_removing (base : BeliefBase) (occursCheck : Bool) (pattern : Term)
    (θ : Substitution) : SameRules base (base.removing occursCheck pattern θ).base :=
  removing_base ⟨rfl, rfl⟩ fun _ _ _ done => sameRules_remove? done

theorem sameRules_replacing (base : BeliefBase) (occursCheck : Bool) (fact : Term) :
    SameRules base (base.replacing occursCheck fact).base := by
  have cleared := sameRules_retract base occursCheck (anyLike fact)
  refine replacing_base ⟨rfl, rfl⟩ cleared fun _ _ done => ?_
  have added := sameRules_assert done
  exact ⟨added.groups.trans cleared.groups, added.renamings.trans cleared.renamings⟩

/-- A search changes nothing but how many renamings there were. -/
theorem next_eq (base : BeliefBase) (search : Search) :
    ∃ n, base.renamings ≤ n ∧ (base.next search).2 = { base with renamings := n } := by
  induction search generalizing base with
  | done => exact ⟨base.renamings, Nat.le_refl _, rfl⟩
  | failed fault => exact ⟨base.renamings, Nat.le_refl _, rfl⟩
  | answer θ rest ih => exact ⟨base.renamings, Nat.le_refl _, rfl⟩
  | facts key more ih => exact ih _ base
  | rules key more ih => exact ih _ base
  | fresh more ih =>
    obtain ⟨n, later, same⟩ := ih (base.renamings + 1) { base with renamings := base.renamings + 1 }
    exact ⟨n, Nat.le_of_succ_le later, same⟩

theorem all_eq (base : BeliefBase) (search : Search) :
    ∃ n, base.renamings ≤ n ∧ (base.all search).2.2 = { base with renamings := n } := by
  induction search generalizing base with
  | done => exact ⟨base.renamings, Nat.le_refl _, rfl⟩
  | failed fault => exact ⟨base.renamings, Nat.le_refl _, rfl⟩
  | answer θ rest ih => exact ih () base
  | facts key more ih => exact ih _ base
  | rules key more ih => exact ih _ base
  | fresh more ih =>
    obtain ⟨n, later, same⟩ := ih (base.renamings + 1) { base with renamings := base.renamings + 1 }
    exact ⟨n, Nat.le_of_succ_le later, same⟩

theorem Ordered.all (ordered : base.Ordered) (search : Search) :
    (base.all search).2.2.Ordered := by
  obtain ⟨n, -, same⟩ := base.all_eq search
  rw [same]
  exact ordered.renamed n

theorem Ordered.next (ordered : base.Ordered) (search : Search) :
    (base.next search).2.Ordered := by
  obtain ⟨n, -, same⟩ := base.next_eq search
  rw [same]
  exact ordered.renamed n

end

/-- The bases that the operations build, in any order, whether they fail or not. -/
inductive Built : BeliefBase → Prop where
  | empty : Built empty
  | asserted (built : Built base) (fact : Term) : Built (base.asserting fact).base
  | retracted (built : Built base) (occursCheck : Bool) (pattern : Term) :
      Built (base.retracting occursCheck pattern).base
  | removed (built : Built base) (occursCheck : Bool) (pattern : Term) (θ : Substitution) :
      Built (base.removing occursCheck pattern θ).base
  | replaced (built : Built base) (occursCheck : Bool) (fact : Term) :
      Built (base.replacing occursCheck fact).base
  | ruled (built : Built base) (rule : Rule) : Built (base.addRule rule)
  | searched (built : Built base) (search : Search) : Built (base.next search).2

theorem Built.ordered {base : BeliefBase} (built : base.Built) : base.Ordered := by
  induction built with
  | empty => exact ordered_empty
  | asserted built fact ih => exact ih.asserting fact
  | retracted built occursCheck pattern ih => exact ih.retracting occursCheck pattern
  | removed built occursCheck pattern θ ih => exact ih.removing occursCheck pattern θ
  | replaced built occursCheck fact ih => exact ih.replacing occursCheck fact
  | ruled built rule ih => exact ih.addRule rule
  | searched built search ih => exact ih.next search

private theorem built_rules {base : BeliefBase} (built : base.Built) (rules : List Rule) :
    (rules.foldl addRule base).Built := by
  induction rules generalizing base with
  | nil => exact built
  | cons rule rest ih => exact ih (built.ruled rule)

theorem built_ofProgram {program : Program} {base : BeliefBase}
    (done : ofProgram program = .ok base) : base.Built := by
  have started : empty.Built := .empty
  unfold ofProgram at done
  generalize empty = start at started done
  generalize program.beliefs = beliefs at done
  induction beliefs generalizing start with
  | nil =>
    cases done
    exact built_rules started _
  | cons fact rest ih =>
    obtain ⟨loaded, folded, same⟩ := bind_eq_ok_iff.mp done
    rw [List.foldlM_cons] at folded
    obtain ⟨next, first, others⟩ := bind_eq_ok_iff.mp folded
    obtain ⟨new, -, kept⟩ := bind_eq_ok_iff.mp first
    cases kept
    exact ih _ (started.asserted fact) (bind_eq_ok_iff.mpr ⟨loaded, others, same⟩)

end BeliefBase

end AgentSpeak
