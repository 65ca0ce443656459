import AgentSpeak.Proofs.Beliefs.Membership
import AgentSpeak.Proofs.Beliefs.Reaching
import Mathlib.Data.List.Pairwise

/-!
Belief bases and the order of insertion. A base files its facts by name and arity; beside it stands
one plain list, to which each new fact is added at the end and on which every change works without
regard to what facts are called. The groups of a base are the parts of this list, so a question,
which reads one group, gets the answers that the whole list has, in its order.
-/

namespace AgentSpeak

section Lists

variable {α : Type} {items : List α} {chosen kept : α → Bool}

/-- Taking out the first of some items that are all kept. -/
private theorem filter_eraseP (inside : ∀ item ∈ items, chosen item = true → kept item = true) :
    (items.eraseP chosen).filter kept = (items.filter kept).eraseP chosen := by
  induction items with
  | nil => rfl
  | cons item rest ih =>
    have later := ih fun other member => inside other (.tail _ member)
    by_cases first : chosen item = true
    · simp [first, inside item List.mem_cons_self first]
    · by_cases own : kept item = true <;> simp [first, own, later]

/-- Taking out the first of some items none of which is kept. -/
private theorem filter_eraseP_of_not
    (apart : ∀ item ∈ items, chosen item = true → kept item = false) :
    (items.eraseP chosen).filter kept = items.filter kept := by
  induction items with
  | nil => rfl
  | cons item rest ih =>
    have later := ih fun other member => apart other (.tail _ member)
    by_cases first : chosen item = true
    · simp [first, apart item List.mem_cons_self first]
    · by_cases own : kept item = true <;> simp [first, own, later]

end Lists

namespace Groups

variable {α : Type} {groups : Groups α} {key : Indicator} {filedUnder : α → Option Indicator}

/-- The items filed under a key, in order, are those of its group. -/
theorem Filed.filter_toList (filed : groups.Filed filedUnder) (key : Indicator) :
    groups.toList.filter (fun item => filedUnder item = some key) = groups.get key := by
  induction groups with
  | nil => rfl
  | cons entry rest ih =>
    obtain ⟨first, items⟩ := entry
    obtain ⟨fresh, apart⟩ := List.nodup_cons.mp filed.apart
    have own := filed.own first items List.mem_cons_self
    have later := ih ⟨apart, fun key items member => filed.own key items (.tail _ member)⟩
    rw [toList, List.flatMap_cons, List.filter_append]
    show _ ++ (toList rest).filter _ = _
    rw [later, get, get, List.lookup_cons]
    by_cases same : key = first
    · subst same
      have kept : items.filter (fun item => filedUnder item = some key) = items :=
        List.filter_eq_self.mpr fun item member => by simp [own item member]
      have none : rest.lookup key = none := by
        rw [List.lookup_eq_none_iff]
        intro entry member
        have different : key ≠ entry.1 :=
          fun equal => fresh (equal ▸ List.mem_map.mpr ⟨entry, member, rfl⟩)
        simpa using different
      simp [kept, none]
    · have dropped : items.filter (fun item => filedUnder item = some key) = [] :=
        List.filter_eq_nil_iff.mpr fun item member => by
          simp [own item member, Ne.symm same]
      have different : (key == first) = false := by simpa using same
      simp [dropped, different]

end Groups

namespace Substitution

variable {check : Bool} {s t fact : Term} {θ : Substitution} {key : Indicator}

/-- Unification with a ground term follows paths no longer than the term is large. -/
private theorem unifyWithin_enough (check : Bool) (ground : t.isGround = true) {m n : Nat}
    (first : t.size ≤ m) (second : t.size ≤ n) (s : Term) (θ : Substitution) :
    unifyWithin check m s t θ = unifyWithin check n s t θ := by
  induction m generalizing n s t θ with
  | zero => exact absurd t.size_pos (by omega)
  | succ m ih =>
    cases n with
    | zero => exact absurd t.size_pos (by omega)
    | succ n =>
      rw [unifyWithin, unifyWithin, walk_of_isGround ground]
      split
      next => rfl
      next =>
        split
        next => rfl
        next => rfl
        next functor arguments _ _ =>
          rw [Term.isGround, Term.isGroundAll_iff] at ground
          refine if_congr Iff.rfl (unifyPairs_congr (fun part member s θ => ?_) θ) rfl
          have smaller := Term.size_lt_compound functor member
          exact ih (ground part member) (by omega) (by omega) s θ
        next => rfl

/-- A variable matches a fact as the literal does that it stands for. -/
theorem unify?_walk (ground : fact.isGround = true) (filed : (θ.walk s).indicator? = some key) :
    θ.unify? check (θ.walk s) fact = θ.unify? check s fact := by
  have still : θ.walk (θ.walk s) = θ.walk s := by
    cases same : θ.walk s <;> simp_all [Term.indicator?]
  have enough (s : Term) : fact.size ≤ (s.size + fact.size + θ.weight) *
      (s.size + fact.size + θ.weight) + 1 := by
    have square := Nat.le_mul_self (s.size + fact.size + θ.weight)
    omega
  have depth := unifyWithin_enough check ground (enough (θ.walk s)) (enough s)
  calc
    θ.unify? check (θ.walk s) fact = unifyWithin check _ (θ.walk s) fact θ := depth (θ.walk s) θ
    _ = θ.unify? check s fact := by rw [unify?, unifyWithin, unifyWithin, still]

/-- A literal matches facts of its own name and arity only. -/
theorem unify?_unlike (ground : fact.isGround = true) (filed : (θ.walk s).indicator? = some key)
    (unlike : fact.indicator? ≠ some key) : θ.unify? check s fact = none := by
  have apart : (θ.walk s == fact) = false := by
    rw [Bool.eq_false_iff]
    exact fun equal => unlike ((Term.indicator?_of_beq equal).symm.trans filed)
  rw [unify?, unifyWithin, walk_of_isGround ground, apart]
  generalize θ.walk s = walked at filed
  cases walked with
  | var | number | string => cases filed
  | atom name => cases fact <;> simp_all [Term.isGround]
  | compound functor arguments =>
    cases fact with
    | compound other others =>
      have different : ¬ (functor = other ∧ arguments.length = others.length) := by
        rintro ⟨rfl, arity⟩
        simp_all [Term.indicator?]
      simp [different]
    | var v => cases ground
    | atom | number | string => simp

end Substitution

/-- In a list of facts no two of which are equal, the facts that equal none of those with a property
are those without it. -/
theorem DistinctFacts.filter_apart {facts : List Term} (distinct : DistinctFacts facts)
    (chosen : Term → Bool) :
    facts.filter (fun fact => !(facts.filter chosen).any (· == fact)) =
      facts.filter fun fact => !chosen fact := by
  refine List.filter_congr fun fact member => congrArg _ ?_
  rw [Bool.eq_iff_iff, List.any_eq_true]
  constructor
  · rintro ⟨other, inside, equal⟩
    obtain ⟨present, own⟩ := List.mem_filter.mp inside
    have : Std.Symm fun fact other : Term => (fact == other) = false :=
      ⟨fun one other differ => by rw [BEq.comm]; exact differ⟩
    by_cases same : other = fact
    · exact same ▸ own
    · exact absurd (distinct.forall present member same) (by simp [equal])
  · exact fun own => ⟨fact, List.mem_filter.mpr ⟨member, own⟩, BEq.rfl⟩

namespace BeliefBase

/-- A change of a base, which the base may reject. -/
inductive Edit where
  | assert (fact : Term)
  | retract (pattern : Term)
  | remove (pattern : Term) (θ : Substitution)
  | replace (fact : Term)
  | addRule (rule : Rule)

namespace Edit

/-- The base after a change, which may have failed. -/
def perform (check : Bool) (base : BeliefBase) : Edit → BeliefBase
  | .assert fact => (base.asserting fact).base
  | .retract pattern => (base.retracting check pattern).base
  | .remove pattern θ => (base.removing check pattern θ).base
  | .replace fact => (base.replacing check fact).base
  | .addRule rule => base.addRule rule

/-- Facts with a new one at their end, if it is one that can be believed and none equals it. -/
def insertLast (fact : Term) (facts : List Term) : List Term :=
  match filing fact with
  | .ok _ => if factSet facts fact then facts else facts ++ [fact]
  | .error _ => facts

/-- The same change of a plain list of facts. A replacement breaks off once it has dropped a fact that
has no text. -/
def performPlain (check : Bool) (facts : List Term) : Edit → List Term
  | .assert fact => insertLast fact facts
  | .retract pattern =>
      if pattern.indicator?.isSome then facts.filter fun fact => !isInstance check pattern fact
      else facts
  | .remove pattern θ =>
      if (θ.walk pattern).indicator?.isSome then
        facts.eraseP fun fact => (θ.unify? check pattern fact).isSome
      else facts
  | .replace fact => match filing fact with
    | .ok _ =>
        let left := facts.filter fun old => !isInstance check (anyLike fact) old
        if (facts.filter (isInstance check (anyLike fact))).all Term.isWritable then
          insertLast fact left
        else left
    | .error _ => facts
  | .addRule _ => facts

end Edit

/-- The base that some changes make of the empty one. -/
def edited (check : Bool) (edits : List Edit) : BeliefBase :=
  edits.foldl (Edit.perform check) empty

/-- The facts that the same changes leave in a plain list, in the order of their insertion. -/
def inserted (check : Bool) (edits : List Edit) : List Term :=
  edits.foldl (Edit.performPlain check) []

/-- Each group of a base is the part of a list of facts that is filed under its key. -/
structure Indexes (base : BeliefBase) (kept : List Term) : Prop where
  isSet : base.IsSet
  group : ∀ key, base.groups.get key = kept.filter fun fact => fact.indicator? = some key
  believable : ∀ fact ∈ kept, fact.isGround = true ∧ ∃ key, fact.indicator? = some key

section Indexing

variable {base : BeliefBase} {kept : List Term} {check : Bool} {fact pattern : Term}
  {θ : Substitution} {key : Indicator}

theorem indexes_empty : empty.Indexes [] :=
  ⟨isSet_empty, fun _ => rfl, by simp⟩

theorem Indexes.factsLike_eq (indexes : base.Indexes kept) (filed : pattern.indicator? = some key) :
    base.factsLike pattern = kept.filter fun fact => fact.indicator? = some key := by
  rw [BeliefBase.factsLike, filed]
  exact indexes.group key

theorem Indexes.contains_eq (indexes : base.Indexes kept) (filed : fact.indicator? = some key) :
    base.contains fact = factSet kept fact := by
  have shared : ∀ one other : Term, (one == other) = true →
      decide (one.indicator? = some key) = decide (other.indicator? = some key) :=
    fun one other equal => by rw [Term.indicator?_of_beq equal]
  rw [contains, indexes.factsLike_eq filed]
  exact (factSet_filter shared kept fact).trans (by simp [filed])

/-- A base with other facts in one group, where the list has them too and has no fewer of any other
name and arity. -/
theorem Indexes.put (indexes : base.Indexes kept) {items later : List Term}
    (isSet : IsSet { base with groups := base.groups.put key items })
    (own : later.filter (fun fact => fact.indicator? = some key) = items)
    (others : ∀ other, other ≠ key → later.filter (fun fact => fact.indicator? = some other) =
      kept.filter fun fact => fact.indicator? = some other)
    (believable : ∀ fact ∈ later, fact.isGround = true ∧ ∃ key, fact.indicator? = some key) :
    Indexes { base with groups := base.groups.put key items } later := by
  refine ⟨isSet, fun other => ?_, believable⟩
  rw [Groups.get_put]
  split
  next same => rw [same, own]
  next different => rw [indexes.group, others other different]

/-- What can be filed can be added. -/
theorem exists_assert (base : BeliefBase) (filed : filing fact = .ok key) :
    ∃ new after, base.assert fact = .ok (new, after) := by
  rw [BeliefBase.assert, filed]
  by_cases old : base.contains fact = true
  · exact ⟨_, _, if_pos old⟩
  · exact ⟨_, _, if_neg old⟩

theorem Indexes.assert (indexes : base.Indexes kept) {new : Bool} {after : BeliefBase}
    (done : base.assert fact = .ok (new, after)) : after.Indexes (Edit.insertLast fact kept) := by
  obtain ⟨isSet, fresh, -⟩ := indexes.isSet.assert done
  obtain ⟨key, filed, cases⟩ := assert_ok done
  obtain ⟨under, ground⟩ := filing_ok filed
  rw [indexes.contains_eq under] at fresh
  rw [Edit.insertLast, filed]
  rcases cases with ⟨rfl, rfl⟩ | ⟨rfl, rfl⟩
  · have old : factSet kept fact = true := by simpa using fresh.symm
    rw [if_pos old]
    exact indexes
  · have absent : factSet kept fact = false := by simpa using fresh.symm
    rw [absent, if_neg Bool.false_ne_true]
    refine indexes.put isSet ?_ ?_ ?_
    · rw [List.filter_append, indexes.group]
      simp [under]
    · intro other different
      rw [List.filter_append]
      simp [under, different.symm]
    · intro other member
      rcases List.mem_append.mp member with old | last
      · exact indexes.believable other old
      · rw [List.mem_singleton.mp last]
        exact ⟨ground, key, under⟩

theorem Indexes.asserting (indexes : base.Indexes kept) (fact : Term) :
    (base.asserting fact).base.Indexes (Edit.insertLast fact kept) := by
  cases filed : filing fact with
  | error fault =>
    have refused : base.assert fact = .error fault := by
      rw [BeliefBase.assert, filed]
      rfl
    rw [Edit.insertLast, filed, BeliefBase.asserting, refused]
    exact indexes
  | ok key =>
    obtain ⟨new, after, done⟩ := base.exists_assert filed
    rw [asserting_of_assert done]
    exact indexes.assert done

theorem isInstance_unlike (ground : fact.isGround = true) (filed : pattern.indicator? = some key)
    (unlike : fact.indicator? ≠ some key) : isInstance check pattern fact = false := by
  have literal : pattern.indicator?.isSome = true := by rw [filed, Option.isSome_some]
  have walked : (Substitution.empty.walk pattern).indicator? = some key := by
    rw [Substitution.walk_of_filed literal, filed]
  rw [isInstance, Substitution.unify?_unlike ground walked unlike, Option.isSome_none]

/-- Instances of a pattern have its name and arity. -/
theorem Indexes.alike_of_isInstance (indexes : base.Indexes kept) (check : Bool)
    (filed : pattern.indicator? = some key) (member : fact ∈ kept)
    (matched : isInstance check pattern fact = true) : fact.indicator? = some key := by
  by_contra unlike
  rw [isInstance_unlike (indexes.believable fact member).1 filed unlike] at matched
  cases matched

/-- What is retracted from the base is what the list has of it, in the same order. -/
theorem Indexes.retract_fst (indexes : base.Indexes kept) (check : Bool)
    (filed : pattern.indicator? = some key) :
    (base.retract check pattern).1 = kept.filter (isInstance check pattern) := by
  rw [BeliefBase.retract_fst, indexes.factsLike_eq filed, List.filter_filter]
  refine List.filter_congr fun fact member => ?_
  by_cases matched : isInstance check pattern fact = true
  · simp [matched, indexes.alike_of_isInstance check filed member matched]
  · simp [Bool.eq_false_iff.mpr matched]

theorem Indexes.retract (indexes : base.Indexes kept) (check : Bool) (pattern : Term) :
    (base.retract check pattern).2.Indexes ((Edit.retract pattern).performPlain check kept) := by
  have isSet := (indexes.isSet.retract check pattern).1
  rw [Edit.performPlain]
  cases filed : pattern.indicator? with
  | none =>
    have none : base.factsLike pattern = [] := by rw [BeliefBase.factsLike, filed]
    simpa [BeliefBase.retract, none] using indexes
  | some key =>
    rw [Option.isSome_some, if_pos rfl]
    have group := indexes.factsLike_eq filed
    have alike := fun fact (member : fact ∈ kept) =>
      indexes.alike_of_isInstance check filed member
    rw [BeliefBase.retract] at isSet ⊢
    split
    next unmatched =>
      rw [List.filter_eq_self.mpr]
      · exact indexes
      · intro fact member
        rw [Bool.not_eq_true', Bool.eq_false_iff]
        intro matched
        have inside : fact ∈ base.factsLike pattern := by
          rw [group]
          exact List.mem_filter.mpr ⟨member, by simpa using alike fact member matched⟩
        have found := List.mem_filter.mpr ⟨inside, matched⟩
        rw [List.isEmpty_iff.mp unmatched] at found
        cases found
    next matched =>
      rw [if_neg matched, BeliefBase.withFactsLike, filed] at isSet
      rw [BeliefBase.withFactsLike, filed]
      refine indexes.put isSet ?_ ?_ ?_
      · rw [(indexes.isSet.factsLike pattern).filter_apart, group, List.filter_filter,
          List.filter_filter]
        simp only [Bool.and_comm]
      · intro other different
        rw [List.filter_filter]
        refine List.filter_congr fun fact member => ?_
        by_cases under : fact.indicator? = some other
        · have apart : isInstance check pattern fact = false := by
            rw [Bool.eq_false_iff]
            intro found
            exact different (Option.some.inj (under.symm.trans (alike fact member found)))
          simp [under, apart]
        · simp [under]
      · exact fun fact member => indexes.believable fact (List.mem_filter.mp member).1

/-- The facts besides the first one that a pattern matches. -/
theorem splitFirst?_others (check : Bool) (pattern : Term) (θ : Substitution)
    (facts : List Term) :
    facts.eraseP (fun fact => (θ.unify? check pattern fact).isSome) =
      match splitFirst? check pattern θ facts with
      | some (_, _, others) => others
      | none => facts := by
  induction facts with
  | nil => rfl
  | cons fact rest ih =>
    rw [List.eraseP_cons, splitFirst?]
    cases θ.unify? check pattern fact with
    | some extended => rfl
    | none =>
      rw [ih]
      cases splitFirst? check pattern θ rest <;> rfl

theorem Indexes.removing (indexes : base.Indexes kept) (check : Bool) (pattern : Term)
    (θ : Substitution) :
    ((Edit.remove pattern θ).perform check base).Indexes
      ((Edit.remove pattern θ).performPlain check kept) := by
  rw [Edit.perform, Edit.performPlain]
  cases filed : (θ.walk pattern).indicator? with
  | none =>
    have none : base.factsLike (θ.walk pattern) = [] := by rw [BeliefBase.factsLike, filed]
    simpa [BeliefBase.removing, BeliefBase.remove?, none, splitFirst?] using indexes
  | some key =>
    rw [Option.isSome_some, if_pos rfl]
    have group := indexes.factsLike_eq filed
    have alike (fact : Term) (member : fact ∈ kept)
        (matched : (θ.unify? check pattern fact).isSome = true) : fact.indicator? = some key := by
      by_contra unlike
      rw [Substitution.unify?_unlike (indexes.believable fact member).1 filed unlike] at matched
      cases matched
    have others := splitFirst?_others check pattern θ (base.factsLike (θ.walk pattern))
    cases found : splitFirst? check pattern θ (base.factsLike (θ.walk pattern)) with
    | none =>
      have unmatched := List.eraseP_eq_self_iff.mp (others.trans (by rw [found]))
      have same : kept.eraseP (fun fact => (θ.unify? check pattern fact).isSome) = kept := by
        refine List.eraseP_of_forall_not fun fact member matched => ?_
        refine unmatched fact ?_ matched
        rw [group]
        exact List.mem_filter.mpr ⟨member, by simpa using alike fact member matched⟩
      rw [BeliefBase.removing, BeliefBase.remove?, found, same]
      exact indexes
    | some result =>
      obtain ⟨fact, extended, left⟩ := result
      have done : base.remove? check pattern θ =
          some (fact, extended, base.withFactsLike (θ.walk pattern) left) := by
        rw [BeliefBase.remove?, found]
        rfl
      have isSet := (indexes.isSet.remove? done).1
      rw [found, group] at others
      rw [BeliefBase.removing, done]
      show BeliefBase.Indexes (base.withFactsLike (θ.walk pattern) left) _
      rw [BeliefBase.withFactsLike, filed] at isSet ⊢
      refine indexes.put isSet ?_ ?_ ?_
      · rw [filter_eraseP, others]
        exact fun fact member matched => by simpa using alike fact member matched
      · intro other different
        refine filter_eraseP_of_not fun fact member matched => ?_
        simpa [alike fact member matched] using different.symm
      · exact fun fact member => indexes.believable fact (List.eraseP_sublist.subset member)

theorem Indexes.replacing (indexes : base.Indexes kept) (check : Bool) (fact : Term) :
    ((Edit.replace fact).perform check base).Indexes
      ((Edit.replace fact).performPlain check kept) := by
  have retracted := indexes.retract check (anyLike fact)
  rw [Edit.perform, Edit.performPlain, BeliefBase.replacing]
  cases filed : filing fact with
  | error fault => exact indexes
  | ok key =>
    have under : (anyLike fact).indicator? = some key := by
      rw [indicator?_anyLike, (filing_ok filed).1]
    rw [Edit.performPlain, under, Option.isSome_some, if_pos rfl] at retracted
    have removed := indexes.retract_fst check under
    by_cases writable : (kept.filter (isInstance check (anyLike fact))).all Term.isWritable = true
    · have cleared : (base.retracting check (anyLike fact)).outcome =
          .ok (kept.filter (isInstance check (anyLike fact))) := by
        rw [outcome_retracting, removed, if_pos writable]
      simp only [cleared, if_pos writable]
      exact retracted.asserting fact
    · have broken : (base.retracting check (anyLike fact)).outcome = .error .unwritable := by
        rw [outcome_retracting, removed, if_neg writable]
      simp only [broken, if_neg writable]
      exact retracted

theorem Indexes.addRule (indexes : base.Indexes kept) (rule : Rule) :
    (base.addRule rule).Indexes kept := by
  have same : (base.addRule rule).groups = base.groups := by
    unfold BeliefBase.addRule
    split <;> rfl
  obtain ⟨isSet, -⟩ := indexes.isSet.addRules [rule]
  exact ⟨isSet, fun key => by rw [same, indexes.group], indexes.believable⟩

theorem Indexes.perform (indexes : base.Indexes kept) (check : Bool) (edit : Edit) :
    (edit.perform check base).Indexes (edit.performPlain check kept) := by
  cases edit with
  | assert fact => exact indexes.asserting fact
  | retract pattern => exact indexes.retract check pattern
  | remove pattern θ => exact indexes.removing check pattern θ
  | replace fact => exact indexes.replacing check fact
  | addRule rule => exact indexes.addRule rule

/-- The changes of a base and of the plain list keep step. -/
theorem indexes_edited (check : Bool) (edits : List Edit) :
    (edited check edits).Indexes (inserted check edits) := by
  have run (base : BeliefBase) (kept : List Term) (indexes : base.Indexes kept) :
      (edits.foldl (Edit.perform check) base).Indexes
        (edits.foldl (Edit.performPlain check) kept) := by
    induction edits generalizing base kept with
    | nil => exact indexes
    | cons edit rest ih => exact ih _ _ (indexes.perform check edit)
  exact run empty [] indexes_empty

end Indexing

section Reading

variable {base : BeliefBase} {kept : List Term} {limits : Limits} {literal : Term}
  {θ : Substitution} {key : Indicator}

theorem size_eq (base : BeliefBase) : base.size = base.facts.length := by
  have count (groups : Groups Term) (start : Nat) :
      groups.foldl (fun total group => total + group.2.length) start =
        start + groups.toList.length := by
    induction groups generalizing start with
    | nil => rfl
    | cons group rest ih =>
      rw [List.foldl_cons, ih, Groups.toList, Groups.toList, List.flatMap_cons, List.length_append,
        Nat.add_assoc]
  exact (count base.groups 0).trans (Nat.zero_add _)

/-- Facts of different groups differ as well. -/
theorem IsSet.distinctFacts (set : base.IsSet) : DistinctFacts base.facts := by
  refine List.pairwise_flatMap.mpr ⟨fun group member => ?_, ?_⟩
  · have own : base.groups.get group.1 = group.2 := by
      rw [Groups.get, set.facts.lookup_of_mem member, Option.getD_some]
    exact own ▸ set.distinct group.1
  · have keys := List.pairwise_map.mp set.facts.apart
    refine keys.imp_of_mem fun {one other} inside others different fact member rival present => ?_
    rw [Bool.eq_false_iff]
    intro equal
    have alike := Term.indicator?_of_beq equal
    rw [set.facts.own _ _ inside fact member, set.facts.own _ _ others rival present] at alike
    exact different (Option.some.inj alike)

/-- What facts match is found first, in their order, and then what comes behind. -/
theorem all_matching_append (base : BeliefBase) (check : Bool) (literal : Term)
    (θ : Substitution) (facts : List Term) (second : Unit → Search) :
    base.all ((Search.matching check literal θ facts).append second) =
      (facts.filterMap (θ.unify? check literal) ++ (base.all (second ())).1,
        (base.all (second ())).2) := by
  induction facts with
  | nil => rfl
  | cons fact rest ih =>
    rw [Search.matching, List.filterMap_cons]
    cases θ.unify? check literal fact with
    | none => exact ih
    | some extended =>
      show (extended :: (base.all _).1, (base.all _).2) = _
      rw [ih]
      rfl

/-- The facts of a list that match a literal are those of its name and arity. -/
theorem filterMap_alike {facts : List Term} (ground : ∀ fact ∈ facts, fact.isGround = true)
    (filed : (θ.walk literal).indicator? = some key) (check : Bool) :
    (facts.filter fun fact => fact.indicator? = some key).filterMap
        (θ.unify? check (θ.walk literal)) =
      facts.filterMap (θ.unify? check literal) := by
  rw [List.filterMap_filter]
  refine List.filterMap_congr fun fact member => ?_
  by_cases under : fact.indicator? = some key
  · rw [if_pos (by simpa using under), Substitution.unify?_walk (ground fact member) filed]
  · rw [if_neg (by simpa using under), Substitution.unify?_unlike (ground fact member) filed under]

/-- The group that a literal is answered from has all facts that it matches, in their order. -/
theorem Ordered.filterMap_get (ordered : base.Ordered)
    (filed : (θ.walk literal).indicator? = some key) (check : Bool) :
    (base.groups.get key).filterMap (θ.unify? check (θ.walk literal)) =
      base.facts.filterMap (θ.unify? check literal) := by
  rw [← filterMap_alike ordered.ground filed, ← ordered.facts.filter_toList]
  rfl

/-- A literal of a name and arity without rules has one answer for each fact that it matches. -/
theorem Indexes.all_query (indexes : base.Indexes kept)
    (filed : (θ.walk literal).indicator? = some key) (notTruth : θ.walk literal ≠ Term.truth)
    (notFalsity : θ.walk literal ≠ Term.falsity)
    (unruled : ∀ rule ∈ base.rules, rule.head.indicator? ≠ some key) :
    base.all (Search.query limits literal θ) =
      if limits.maxDepth < 0 then
        ([], some (.tooDeep limits.maxDepth (θ.apply literal)), base)
      else (kept.filterMap (θ.unify? limits.occursCheck literal), none, base) := by
  have none : base.ruleGroups.get key = [] := indexes.isSet.rules_get_eq_nil unruled
  obtain ⟨prove, reads⟩ := Search.query_filed limits filed notTruth notFalsity
  rw [reads]
  split
  next => rfl
  next =>
    rw [all, all_matching_append, indexes.group,
      filterMap_alike (fun fact member => (indexes.believable fact member).1) filed, all, none]
    simp [Search.applying, all]

/-- The groups keep each fact in its place among those that match a literal. -/
theorem Indexes.filterMap_facts (indexes : base.Indexes kept)
    (filed : (θ.walk literal).indicator? = some key) (check : Bool) :
    base.facts.filterMap (θ.unify? check literal) =
      kept.filterMap (θ.unify? check literal) := by
  rw [← indexes.isSet.filterMap_get filed, indexes.group]
  exact filterMap_alike (fun fact member => (indexes.believable fact member).1) filed check

/-- Whatever changes were made of the empty base, every fact is ground and filed under its own name
and arity, no two are equal, they are counted right, the base contains exactly what equals one of
them, and a literal of a name and arity without rules has one answer for each fact of the whole base
that it matches, in the order in which these were added. -/
theorem edited_consistent (check : Bool) (edits : List Edit) :
    (∀ key items, (key, items) ∈ (edited check edits).groups → ∀ fact ∈ items,
      fact.isGround = true ∧ fact.indicator? = some key) ∧
    DistinctFacts (edited check edits).facts ∧
    (edited check edits).size = (edited check edits).facts.length ∧
    (∀ term, (edited check edits).contains term = true ↔
      ∃ fact ∈ (edited check edits).facts, (fact == term) = true) ∧
    ∀ limits literal θ key, (Substitution.walk θ literal).indicator? = some key →
      θ.walk literal ≠ Term.truth → θ.walk literal ≠ Term.falsity →
      (∀ rule ∈ (edited check edits).rules, rule.head.indicator? ≠ some key) →
      (edited check edits).all (Search.query limits literal θ) =
        (if limits.maxDepth < 0 then
          ([], some (.tooDeep limits.maxDepth (θ.apply literal)), edited check edits)
        else
          ((edited check edits).facts.filterMap (θ.unify? limits.occursCheck literal), none,
            edited check edits)) ∧
      (edited check edits).facts.filterMap (θ.unify? limits.occursCheck literal) =
        (inserted check edits).filterMap (θ.unify? limits.occursCheck literal) := by
  have indexes := indexes_edited check edits
  have set := indexes.isSet
  refine ⟨fun key items entry fact member => ?_, set.distinctFacts, size_eq _, fun term => ?_, ?_⟩
  · exact ⟨set.ground fact (List.mem_flatMap.mpr ⟨_, entry, member⟩),
      set.facts.own key items entry fact member⟩
  · rw [set.contains_eq, factSet_eq_true_iff]
  · intro limits literal θ key filed notTruth notFalsity unruled
    have order := indexes.filterMap_facts filed limits.occursCheck
    refine ⟨?_, order⟩
    rw [indexes.all_query filed notTruth notFalsity unruled, order]

/-- Of two facts and a third one of another name, a literal matches the two, as they were added. -/
theorem edited_consistent_pair :
    let edits : List Edit :=
      [.assert (.compound "p" [.string "b"]), .assert (.atom "q"), .assert (.var (⟨"X", []⟩)),
        .assert (.compound "p" [.string "a"])]
    let literal : Term := .compound "p" [.var (⟨"X", []⟩)]
    ((edited true edits).all (Search.query {} literal .empty)).1.map (·.bindings) =
      [[(⟨"X", []⟩, .string "b")], [(⟨"X", []⟩, .string "a")]] := by
  intro edits literal
  have consistent := (edited_consistent true edits).2.2.2.2 {} literal .empty ⟨"p", 1⟩ rfl
    nofun nofun (by decide)
  rw [consistent.1]
  rfl

end Reading

end BeliefBase

end AgentSpeak
