import AgentSpeak.Proofs.Beliefs.Insertion

/-!
What changes take away. Each of them works on one group of the base, and takes out of the whole list of
facts what unification finds there: all facts that a pattern matches, the first one that a question
would find, or all those of a name and arity.
-/

namespace AgentSpeak

namespace Groups

variable {α : Type} {groups : Groups α} {key : Indicator} {filedUnder : α → Option Indicator}

theorem put_put (key : Indicator) (old items : List α) (groups : Groups α) :
    put key items (put key old groups) = put key items groups := by
  induction groups with
  | nil => simp [put]
  | cons entry rest ih =>
    obtain ⟨other, own⟩ := entry
    by_cases same : other = key <;> simp [put, same, ih]

/-- The items of a group stand together in the list of all items, and other items put in the group
stand in their place. -/
theorem Filed.around (filed : groups.Filed filedUnder) (key : Indicator) :
    ∃ before behind, (∀ item ∈ before ++ behind, filedUnder item ≠ some key) ∧
      groups.toList = before ++ groups.get key ++ behind ∧
      ∀ items, (groups.put key items).toList = before ++ items ++ behind := by
  induction groups with
  | nil => exact ⟨[], [], by simp, rfl, fun items => by simp [Groups.put, toList]⟩
  | cons entry rest ih =>
    obtain ⟨first, own⟩ := entry
    obtain ⟨fresh, apart⟩ := List.nodup_cons.mp filed.apart
    by_cases same : first = key
    · subst same
      refine ⟨[], toList rest, fun item member under => ?_, ?_, fun items => ?_⟩
      · obtain ⟨⟨other, items⟩, entry, inside⟩ := List.mem_flatMap.mp member
        cases (filed.own other items (.tail _ entry) item inside).symm.trans under
        exact fresh (List.mem_map.mpr ⟨_, entry, rfl⟩)
      · simp [toList, get]
      · simp [Groups.put, toList]
    · obtain ⟨before, behind, others, whole, replaced⟩ :=
        ih ⟨apart, fun key items member => filed.own key items (.tail _ member)⟩
      have different : (key == first) = false := by simpa using Ne.symm same
      refine ⟨own ++ before, behind, fun item member => ?_, ?_, fun items => ?_⟩
      · rw [List.append_assoc] at member
        rcases List.mem_append.mp member with here | later
        · rw [filed.own first own List.mem_cons_self item here]
          simpa using same
        · exact others item later
      · have group : get ((first, own) :: rest) key = get rest key := by
          rw [get, List.lookup_cons, different]
          rfl
        rw [group, List.append_assoc, List.append_assoc, ← List.append_assoc before, ← whole]
        rfl
      · rw [Groups.put, if_neg same, List.append_assoc, List.append_assoc,
          ← List.append_assoc before, ← replaced items]
        rfl

end Groups

namespace Substitution

variable {θ : Substitution} {fact pattern : Term}

/-- Some terms for the variables agree with the bindings and make a pattern equal to a fact. -/
def Allows (θ : Substitution) (pattern fact : Term) : Prop :=
  ∃ σ, Satisfies σ θ ∧ (pattern.bind σ == fact) = true

/-- A pattern unifies with a fact exactly if the bindings allow that they are equal. -/
theorem Acyclic.isSome_unify?_iff (acyclic : θ.Acyclic) (ground : fact.isGround = true)
    (check : Bool) (pattern : Term) :
    (θ.unify? check pattern fact).isSome = true ↔ θ.Allows pattern fact := by
  have none := acyclic.unify?_eq_none_iff pattern fact
  simp only [Term.bind_of_isGround ground] at none
  rw [Substitution.unify?_of_isGround ground, Option.isSome_iff_ne_none, ne_eq, none, not_not]
  exact Iff.rfl

end Substitution

namespace BeliefBase

variable {base after : BeliefBase} {fact pattern literal : Term} {check : Bool} {limits : Limits}
  {θ : Substitution} {key : Indicator}

theorem IsSet.renamed (set : base.IsSet) (n : Nat) : IsSet { base with renamings := n } :=
  ⟨set.toOrdered.renamed n, set.distinct⟩

/-- No base that the operations build has a fact twice. -/
theorem Built.isSet (built : base.Built) : base.IsSet := by
  induction built with
  | empty => exact isSet_empty
  | asserted built fact ih => exact ih.asserting fact
  | retracted built occursCheck pattern ih => exact ih.retracting occursCheck pattern
  | removed built occursCheck pattern θ ih => exact ih.removing occursCheck pattern θ
  | replaced built occursCheck fact ih => exact ih.replacing occursCheck fact
  | ruled built rule ih => exact (ih.addRules [rule]).1
  | @searched base built search ih =>
    obtain ⟨n, -, same⟩ := base.next_eq search
    rw [same]
    exact ih.renamed n

/-- The facts of a pattern's name and arity stand together among all facts. Those before and behind
them do not match the pattern, and other facts are put in their place. -/
theorem Ordered.around (ordered : base.Ordered) (filed : pattern.indicator? = some key) :
    ∃ before behind, (∀ fact ∈ before ++ behind,
        fact.isGround = true ∧ fact.indicator? ≠ some key) ∧
      base.facts = before ++ base.factsLike pattern ++ behind ∧
      ∀ items, (base.withFactsLike pattern items).facts = before ++ items ++ behind := by
  obtain ⟨before, behind, others, whole, replaced⟩ := ordered.facts.around key
  refine ⟨before, behind, fun fact member => ⟨?_, others fact member⟩, ?_, fun items => ?_⟩
  · refine ordered.ground fact ?_
    rw [BeliefBase.facts, whole, List.append_assoc]
    rcases List.mem_append.mp member with early | late
    · exact List.mem_append_left _ early
    · exact List.mem_append_right _ (List.mem_append_right _ late)
  · rw [BeliefBase.facts, BeliefBase.factsLike, filed, whole]
  · rw [BeliefBase.withFactsLike, filed]
    exact replaced items

section Answering

/-- The answers that a search gives before it reads a rule. -/
def drawn (base : BeliefBase) : Search → List Substitution
  | .answer θ rest => θ :: base.drawn (rest ())
  | .facts key more => base.drawn (more (base.groups.get key))
  | _ => []

theorem drawn_matching_append (base : BeliefBase) (check : Bool) (literal : Term)
    (θ : Substitution) (facts : List Term) (second : Unit → Search) :
    base.drawn ((Search.matching check literal θ facts).append second) =
      facts.filterMap (θ.unify? check literal) ++ base.drawn (second ()) := by
  induction facts with
  | nil => rfl
  | cons fact rest ih =>
    rw [Search.matching, List.filterMap_cons]
    cases θ.unify? check literal fact with
    | none => exact ih
    | some extended => exact congrArg (extended :: ·) ih

/-- A question draws one answer from each fact of the base that it matches. -/
theorem Ordered.drawn_query (ordered : base.Ordered) (limits : Limits)
    (filed : (θ.walk literal).indicator? = some key) (notTruth : θ.walk literal ≠ Term.truth)
    (notFalsity : θ.walk literal ≠ Term.falsity) :
    base.drawn (Search.query limits literal θ) =
      if limits.maxDepth < 0 then []
      else base.facts.filterMap (θ.unify? limits.occursCheck literal) := by
  obtain ⟨prove, reads⟩ := Search.query_filed limits filed notTruth notFalsity
  rw [reads]
  split
  next => rfl
  next =>
    rw [drawn, drawn_matching_append, drawn, List.append_nil]
    · exact ordered.filterMap_get filed limits.occursCheck
    · simp
    · simp

end Answering

section Retracting

/-- A pattern matches none of the facts of another name or arity. -/
private theorem filter_unlike {facts : List Term} (filed : pattern.indicator? = some key)
    (unlike : ∀ fact ∈ facts, fact.isGround = true ∧ fact.indicator? ≠ some key) (check : Bool) :
    facts.filter (isInstance check pattern) = [] ∧
      (facts.filter fun fact => !isInstance check pattern fact) = facts := by
  have unmatched (fact : Term) (member : fact ∈ facts) : isInstance check pattern fact = false :=
    isInstance_unlike (unlike fact member).1 filed (unlike fact member).2
  constructor
  · exact List.filter_eq_nil_iff.mpr fun fact member => by simp [unmatched fact member]
  · exact List.filter_eq_self.mpr fun fact member => by simp [unmatched fact member]

/-- What is retracted are the facts of the whole base that the pattern matches, and the others stay as
they were. -/
theorem IsSet.retract_eq (set : base.IsSet) (check : Bool)
    (filed : pattern.indicator? = some key) :
    (base.retract check pattern).1 = base.facts.filter (isInstance check pattern) ∧
      (base.retract check pattern).2.facts =
        base.facts.filter fun fact => !isInstance check pattern fact := by
  obtain ⟨before, behind, others, whole, replaced⟩ := set.around filed
  obtain ⟨early, late⟩ := List.forall_mem_append.mp others
  obtain ⟨noneBefore, allBefore⟩ := filter_unlike filed early check
  obtain ⟨noneBehind, allBehind⟩ := filter_unlike filed late check
  refine ⟨?_, ?_⟩
  · rw [retract_fst, whole, List.filter_append, List.filter_append, noneBefore, noneBehind,
      List.nil_append, List.append_nil]
  · have kept : (base.facts.filter fun fact => !isInstance check pattern fact) =
        before ++ ((base.factsLike pattern).filter fun fact => !isInstance check pattern fact) ++
          behind := by
      rw [whole, List.filter_append, List.filter_append, allBefore, allBehind]
    rw [kept, BeliefBase.retract]
    split
    next none =>
      have unmatched := List.filter_eq_nil_iff.mp (List.isEmpty_iff.mp none)
      rw [List.filter_eq_self.mpr fun fact member => by simpa using unmatched fact member]
      exact whole
    next some => rw [replaced, (set.factsLike pattern).filter_apart]

end Retracting

section Removing

theorem splitFirst?_none {facts : List Term} (none : splitFirst? check pattern θ facts = none) :
    ∀ fact ∈ facts, θ.unify? check pattern fact = .none := by
  induction facts with
  | nil => exact fun _ member => nomatch member
  | cons first rest ih =>
    unfold splitFirst? at none
    split at none
    next => cases none
    next failed => exact List.forall_mem_cons.mpr ⟨failed, ih (Option.map_eq_none_iff.mp none)⟩

/-- What is removed is the first fact of the whole base that the pattern matches, and nothing if there
is none. -/
theorem Ordered.remove?_divides (ordered : base.Ordered) (check : Bool) (θ : Substitution)
    (filed : pattern.indicator? = some key) :
    match base.remove? check pattern θ with
    | none => ∀ fact ∈ base.facts, θ.unify? check pattern fact = none
    | some (fact, extended, after) => θ.unify? check pattern fact = some extended ∧
        ∃ before behind, base.facts = before ++ fact :: behind ∧ after.facts = before ++ behind ∧
          ∀ earlier ∈ before, θ.unify? check pattern earlier = none := by
  have walked : θ.walk pattern = pattern :=
    Substitution.walk_of_filed (by rw [filed, Option.isSome_some]) θ
  obtain ⟨first, last, others, whole, replaced⟩ := ordered.around filed
  have unlike (fact : Term) (member : fact ∈ first ++ last) :
      θ.unify? check pattern fact = none :=
    Substitution.unify?_unlike (others fact member).1 (by rw [walked, filed]) (others fact member).2
  obtain ⟨early, late⟩ := List.forall_mem_append.mp unlike
  rw [BeliefBase.remove?, walked]
  cases found : splitFirst? check pattern θ (base.factsLike pattern) with
  | none =>
    rw [whole]
    exact List.forall_mem_append.mpr
      ⟨List.forall_mem_append.mpr ⟨early, splitFirst?_none found⟩, late⟩
  | some result =>
    obtain ⟨fact, extended, left⟩ := result
    obtain ⟨before, behind, group, remaining, earlier⟩ := splitFirst?_split found
    refine ⟨(splitFirst?_some found).2.1, first ++ before, behind ++ last, ?_, ?_, ?_⟩
    · rw [whole, group]
      simp
    · show (base.withFactsLike pattern left).facts = _
      rw [replaced, remaining]
      simp
    · exact List.forall_mem_append.mpr ⟨early, earlier⟩

/-- The bindings of the fact that is removed are the first that unification finds in the whole base. -/
theorem Ordered.remove?_bindings (ordered : base.Ordered) (check : Bool) (θ : Substitution)
    (filed : pattern.indicator? = some key) :
    (base.remove? check pattern θ).map (·.2.1) =
      (base.facts.filterMap (θ.unify? check pattern)).head? := by
  have divides := ordered.remove?_divides check θ filed
  cases done : base.remove? check pattern θ with
  | none =>
    rw [done] at divides
    rw [List.filterMap_eq_nil_iff.mpr divides]
    rfl
  | some result =>
    obtain ⟨fact, extended, after⟩ := result
    rw [done] at divides
    obtain ⟨matched, before, behind, whole, -, earlier⟩ := divides
    rw [whole, List.filterMap_append, List.filterMap_eq_nil_iff.mpr earlier,
      List.filterMap_cons, matched]
    rfl

/-- What is removed is the first fact that the bindings allow to equal the pattern. -/
theorem Ordered.removing_takes (ordered : base.Ordered) (acyclic : θ.Acyclic) (check : Bool)
    (filed : pattern.indicator? = some key) :
    let revision := base.removing check pattern θ
    match base.remove? check pattern θ with
    | none => (∀ other ∈ base.facts, ¬θ.Allows pattern other) ∧
        revision.outcome = .ok none ∧ revision.base = base
    | some (found, extended, _) => θ.unify? check pattern found = some extended ∧
        θ.Allows pattern found ∧
        (∃ before behind, base.facts = before ++ found :: behind ∧
          revision.base.facts = before ++ behind ∧ ∀ earlier ∈ before, ¬θ.Allows pattern earlier) ∧
        revision.outcome =
          if found.isWritable then .ok (some extended) else .error .unwritable := by
  have allows (other : Term) (believed : other ∈ base.facts) :=
    acyclic.isSome_unify?_iff (ordered.ground other believed) check pattern
  have refuses (other : Term) (believed : other ∈ base.facts)
      (failed : θ.unify? check pattern other = none) : ¬θ.Allows pattern other := by
    rw [← allows other believed, failed]
    exact Bool.false_ne_true
  have divides := ordered.remove?_divides check θ filed
  rw [BeliefBase.removing]
  cases done : base.remove? check pattern θ with
  | none =>
    rw [done] at divides
    exact ⟨fun other believed => refuses other believed (divides other believed), rfl, rfl⟩
  | some result =>
    obtain ⟨found, extended, after⟩ := result
    rw [done] at divides
    obtain ⟨matched, before, behind, whole, left, earlier⟩ := divides
    refine ⟨matched, ?_, ⟨before, behind, whole, left, fun other member => ?_⟩, ?_⟩
    · rw [← allows found (by simp [whole]), matched, Option.isSome_some]
    · exact refuses other (by simp [whole, member]) (earlier other member)
    · simp [announced]

end Removing

section Replacing

/-- The pattern of all facts like one that has its arguments is made from the name and the arity. -/
private theorem anyLike_eq (filed : fact.indicator? = some key)
    (plain : ∀ functor, fact ≠ .compound functor []) :
    anyLike fact = if key.arity = 0 then .atom key.name
      else .compound key.name ((List.range key.arity).map fun i => .var (.wildcard i)) := by
  match fact with
  | .var _ | .number _ | .string _ => cases filed
  | .atom name =>
    cases filed
    rfl
  | .compound functor [] => exact absurd rfl (plain functor)
  | .compound functor (first :: rest) =>
    cases filed
    rfl

/-- Where no fact is a compound term that lacks arguments, the pattern of all facts like a literal
matches all those of its name and arity. -/
theorem IsSet.isInstance_anyLike (set : base.IsSet) (check : Bool)
    (filed : fact.indicator? = some key)
    (plain : ∀ term ∈ fact :: base.facts, ∀ functor, term ≠ .compound functor []) :
    ∀ other ∈ base.factsLike fact, isInstance check (anyLike fact) other = true := by
  obtain ⟨own, others⟩ := List.forall_mem_cons.mp plain
  intro other member
  obtain ⟨believed, alike⟩ := set.mem_factsLike member
  have same : anyLike fact = anyLike other := by
    rw [anyLike_eq filed own, anyLike_eq (alike.trans filed) (others other believed)]
  rw [same]
  exact BeliefBase.isInstance_anyLike check (set.ground other believed) BEq.rfl

/-- A pattern that matches its whole group empties it. -/
private theorem retract_whole (filed : pattern.indicator? = some key)
    (each : ∀ fact ∈ base.factsLike pattern, isInstance check pattern fact = true) :
    base.retract check pattern = (base.factsLike pattern,
      if (base.factsLike pattern).isEmpty then base
      else { base with groups := base.groups.put key [] }) := by
  have removed := List.filter_eq_self.mpr each
  have kept : ((base.factsLike pattern).filter fun fact =>
      !(base.factsLike pattern).any (· == fact)) = [] := by
    refine List.filter_eq_nil_iff.mpr fun fact member => ?_
    rw [show (base.factsLike pattern).any (· == fact) = true from factSet_of_mem member]
    simp
  rw [BeliefBase.retract, removed]
  split
  next none => rw [List.isEmpty_iff.mp none]
  next => rw [kept, BeliefBase.withFactsLike, filed]

/-- To make room for a fact, those of its name and arity are taken away, and then it is new. -/
theorem IsSet.replace_eq (set : base.IsSet) (check : Bool) (filed : filing fact = .ok key)
    (plain : ∀ term ∈ fact :: base.facts, ∀ functor, term ≠ .compound functor []) :
    (base.retract check (anyLike fact)).1 = base.factsLike fact ∧
      (base.retract check (anyLike fact)).2.facts = (base.withFactsLike fact []).facts ∧
      (base.retract check (anyLike fact)).2.assert fact =
        .ok (true, base.withFactsLike fact [fact]) := by
  obtain ⟨under, -⟩ := filing_ok filed
  have group : base.factsLike (anyLike fact) = base.factsLike fact := by
    rw [BeliefBase.factsLike, BeliefBase.factsLike, indicator?_anyLike]
  have own : base.groups.get key = base.factsLike fact := by
    rw [BeliefBase.factsLike, under]
  have retracted := retract_whole (by rw [indicator?_anyLike, under])
    (group ▸ set.isInstance_anyLike check under plain)
  rw [group] at retracted
  rw [retracted, BeliefBase.withFactsLike, BeliefBase.withFactsLike, under]
  refine ⟨rfl, ?_, ?_⟩
  · split
    next empty =>
      obtain ⟨before, behind, -, whole, replaced⟩ := set.around under
      have cleared := replaced []
      rw [BeliefBase.withFactsLike, under] at cleared
      rw [cleared, whole, List.isEmpty_iff.mp empty]
    next => rfl
  · split
    next empty =>
      have none := List.isEmpty_iff.mp empty
      have new : base.contains fact = false := by
        rw [contains, none]
        rfl
      rw [assert_new filed new, Groups.push, own, none]
      rfl
    next =>
      rw [assert_new filed (by rw [contains_put, if_pos under, factSet_nil]), Groups.push,
        Groups.get_put, if_pos rfl, Groups.put_put]
      rfl

theorem filing_error_iff :
    (∃ fault, filing fact = .error fault) ↔
      ¬(fact.indicator?.isSome = true ∧ fact.isGround = true) := by
  cases filed : fact.indicator? with
  | none => simp [filing, filed]
  | some key => by_cases ground : fact.isGround = true <;> simp [filing, filed, ground]

/-- Only a ground literal replaces facts: those of its name and arity, by itself. If one of them has no
text, they are gone and it does not come. -/
theorem IsSet.replacing_stands (set : base.IsSet) (check : Bool)
    (plain : ∀ term ∈ fact :: base.facts, ∀ functor, term ≠ .compound functor []) :
    let revision := base.replacing check fact
    let removed := base.facts.filter fun other => other.indicator? = fact.indicator?
    match filing fact with
    | .error fault => ¬(fact.indicator?.isSome = true ∧ fact.isGround = true) ∧
        revision.outcome = .error fault ∧ revision.base = base
    | .ok _ => (fact.indicator?.isSome = true ∧ fact.isGround = true) ∧
        ∃ before behind, base.facts = before ++ removed ++ behind ∧
          (∀ other ∈ before ++ behind, other.indicator? ≠ fact.indicator?) ∧
          if removed.all Term.isWritable then
            revision.base.facts = before ++ fact :: behind ∧
              revision.outcome = if fact.isWritable then .ok removed else .error .unwritable
          else revision.base.facts = before ++ behind ∧ revision.outcome = .error .unwritable := by
  intro revision removed
  have unfolded : revision = base.replacing check fact := rfl
  rw [BeliefBase.replacing] at unfolded
  cases filed : filing fact with
  | error fault =>
    rw [filed] at unfolded
    rw [unfolded]
    exact ⟨filing_error_iff.mp ⟨fault, filed⟩, rfl, rfl⟩
  | ok key =>
    obtain ⟨under, ground⟩ := filing_ok filed
    obtain ⟨before, behind, others, whole, replaced⟩ := set.around under
    obtain ⟨cleared, emptied, filled⟩ := set.replace_eq check filed plain
    have own : base.factsLike fact = removed := by
      rw [BeliefBase.factsLike, under]
      exact ((set.facts.filter_toList key).symm.trans (by rw [← under]; rfl))
    rw [own] at whole cleared
    refine ⟨⟨by rw [under, Option.isSome_some], ground⟩, before, behind, whole, ?_, ?_⟩
    · rw [under]
      exact fun other member => (others other member).2
    have outcome := base.outcome_retracting check (anyLike fact)
    rw [cleared] at outcome
    split
    next writable =>
      rw [if_pos writable] at outcome
      simp only [filed, outcome] at unfolded
      have added : (base.retracting check (anyLike fact)).base.assert fact =
          .ok (true, base.withFactsLike fact [fact]) := filled
      rw [unfolded, BeliefBase.asserting, added]
      refine ⟨(replaced [fact]).trans (by simp), ?_⟩
      cases writes : fact.isWritable <;> simp [announced, Except.map, writes]
    next broken =>
      rw [if_neg broken] at outcome
      simp only [filed, outcome] at unfolded
      rw [unfolded]
      exact ⟨emptied.trans ((replaced []).trans (by simp)), outcome⟩

end Replacing

/-- Each change takes away what a question would find. A pattern that is retracted takes all facts it
matches, in their order. One that is removed takes the first fact it matches under the bindings, and
gives the first answer that the question draws from the facts. A fact that replaces others takes those
of its name and arity and stands in their place. The other facts stay as they were. The changes are
made whether the facts have texts or not, except that nothing replaces a fact without one; but an
operation on a fact without a text fails. -/
theorem removals_exact (built : base.Built) (limits : Limits) (acyclic : θ.Acyclic)
    (literal : pattern.indicator?.isSome = true) (notTruth : pattern ≠ Term.truth)
    (notFalsity : pattern ≠ Term.falsity)
    (plain : ∀ term ∈ fact :: base.facts, ∀ functor, term ≠ .compound functor []) :
    let check := limits.occursCheck
    let retracting := base.retracting check pattern
    let retracted := base.facts.filter (isInstance check pattern)
    let removing := base.removing check pattern θ
    let replacing := base.replacing check fact
    let replaced := base.facts.filter fun other => other.indicator? = fact.indicator?
    (retracting.base.facts = (base.facts.filter fun other => !isInstance check pattern other) ∧
      (retracting.outcome =
        if retracted.all Term.isWritable then .ok retracted else .error .unwritable) ∧
      ∀ other ∈ base.facts,
        isInstance check pattern other = true ↔ Substitution.empty.Allows pattern other) ∧
    ((base.remove? check pattern θ).map (·.2.1) =
        (base.facts.filterMap (θ.unify? check pattern)).head? ∧
      base.drawn (Search.query limits pattern θ) =
        (if limits.maxDepth < 0 then [] else base.facts.filterMap (θ.unify? check pattern)) ∧
      match base.remove? check pattern θ with
      | none => (∀ other ∈ base.facts, ¬θ.Allows pattern other) ∧
          removing.outcome = .ok none ∧ removing.base = base
      | some (found, extended, _) => θ.unify? check pattern found = some extended ∧
          θ.Allows pattern found ∧
          (∃ before behind, base.facts = before ++ found :: behind ∧
            removing.base.facts = before ++ behind ∧
            ∀ earlier ∈ before, ¬θ.Allows pattern earlier) ∧
          removing.outcome =
            if found.isWritable then .ok (some extended) else .error .unwritable) ∧
    match filing fact with
    | .error fault => ¬(fact.indicator?.isSome = true ∧ fact.isGround = true) ∧
        replacing.outcome = .error fault ∧ replacing.base = base
    | .ok _ => (fact.indicator?.isSome = true ∧ fact.isGround = true) ∧
        ∃ before behind, base.facts = before ++ replaced ++ behind ∧
          (∀ other ∈ before ++ behind, other.indicator? ≠ fact.indicator?) ∧
          if replaced.all Term.isWritable then
            replacing.base.facts = before ++ fact :: behind ∧
              replacing.outcome = if fact.isWritable then .ok replaced else .error .unwritable
          else replacing.base.facts = before ++ behind ∧ replacing.outcome = .error .unwritable := by
  intro check
  obtain ⟨key, filed⟩ := Option.isSome_iff_exists.mp literal
  have set := built.isSet
  have walked : θ.walk pattern = pattern := Substitution.walk_of_filed literal θ
  have answers := set.drawn_query limits (walked.symm ▸ filed) (walked.symm ▸ notTruth)
    (walked.symm ▸ notFalsity)
  obtain ⟨retracted, kept⟩ := set.retract_eq check filed
  refine ⟨⟨kept, ?_, fun other believed => ?_⟩, ⟨?_, answers, ?_⟩, ?_⟩
  · exact (base.outcome_retracting check pattern).trans (by rw [retracted])
  · exact Substitution.acyclic_empty.isSome_unify?_iff (set.ground other believed) check pattern
  · exact set.remove?_bindings check θ filed
  · exact set.removing_takes acyclic check filed
  · exact set.replacing_stands check plain

/-- Of the facts `p(1)`, `p(2)` and `q(a)`, the pattern `p(X)` retracts the first two. With `X` bound to
`2` it removes `p(2)`, and `p(3)` replaces both. -/
theorem removals_exact_store :
    let fact (n : Int) : Term := .compound "p" [.number (.int n)]
    let other : Term := .compound "q" [.atom "a"]
    let base : BeliefBase := ⟨[(⟨"p", 1⟩, [fact 1, fact 2]), (⟨"q", 1⟩, [other])], [], 0⟩
    let pattern : Term := .compound "p" [.var ⟨"X", []⟩]
    let θ := Substitution.empty.insert ⟨"X", []⟩ (.number (.int 2))
    base.Built ∧ θ.Acyclic ∧
      (base.retracting false pattern).outcome = .ok [fact 1, fact 2] ∧
      (base.retracting false pattern).base.facts = [other] ∧
      (base.remove? false pattern θ).map (·.2.1) = some θ ∧
      (fact 3).isGround = true := by
  intro fact other base pattern θ
  have built : base.Built :=
    .asserted (.asserted (.asserted .empty (fact 1)) (fact 2)) other
  have acyclic : θ.Acyclic := Substitution.acyclic_single _ _ (by decide)
  have literal : pattern.indicator?.isSome = true := rfl
  have notTruth : pattern ≠ Term.truth := by simp [pattern, Term.truth]
  have notFalsity : pattern ≠ Term.falsity := by simp [pattern, Term.falsity]
  have plain : ∀ term ∈ fact 3 :: base.facts, ∀ functor, term ≠ .compound functor [] := by
    simp [fact, other, base, facts, Groups.toList]
  obtain ⟨⟨kept, retracted, -⟩, ⟨removed, -, -⟩, replaced⟩ :=
    removals_exact built {} acyclic literal notTruth notFalsity plain
  exact ⟨built, acyclic, retracted.trans rfl, kept.trans rfl, removed.trans rfl, replaced.1.2⟩

/-- A number with 5001 digits takes the place of another one, and the operation fails. -/
theorem replacing_unwritable :
    let fact (n : Int) : Term := .compound "n" [.number (.int n)]
    let revision := (empty.asserting (fact 1)).base.replacing false (fact (Int.pow 10 5000))
    revision.outcome.toOption = none ∧
      revision.base.contains (fact 1) = false ∧
      revision.base.contains (fact (Int.pow 10 5000)) = true := by
  decide +kernel

end BeliefBase

end AgentSpeak
