import AgentSpeak.Proofs.Beliefs.Removal
import AgentSpeak.Proofs.Beliefs.Streams

/-!
Changes of a base while searches of it are under way. A question reads the facts of its name and arity
once, when it is resumed for the first time. What is added or taken away after that is not seen by it.
-/

namespace AgentSpeak

namespace Search

/-- A search that reads nothing but rules under a key, and gives exactly these answers where there are
none. -/
inductive Yields (key : Indicator) : List Substitution → Search → Prop where
  | ended : Yields key [] .done
  | rules {next : List Rule → Search} (none : next [] = .done) : Yields key [] (.rules key next)
  | answer {answers : List Substitution} {θ : Substitution} {rest : Unit → Search}
      (later : Yields key answers (rest ())) : Yields key (θ :: answers) (.answer θ rest)

variable {key : Indicator} {answers : List Substitution} {search : Search}

/-- Behind the answers from some facts there are only those from rules. -/
theorem yields_matching (key : Indicator) (check : Bool)
    (prove : Formula → Substitution → Search) (literal : Term) (θ : Substitution)
    (facts : List Term) :
    Yields key (facts.filterMap (θ.unify? check literal))
      ((matching check literal θ facts).append fun _ =>
        .rules key (applying check prove literal θ)) := by
  induction facts with
  | nil => exact .rules rfl
  | cons fact rest ih =>
    rw [matching, List.filterMap_cons]
    cases θ.unify? check literal fact with
    | none => exact ih
    | some extended => exact .answer ih

/-- Without rules under the key a chunk has the first of the answers, and the others are left. -/
theorem Yields.take (yields : Yields key answers search) {base : BeliefBase}
    (none : base.ruleGroups.get key = []) (limit : Nat) :
    ∃ rest, base.take limit search = (⟨answers.take limit, .none, rest⟩, base) ∧
      Yields key (answers.drop limit) rest ∧
      (answers.length < limit ∨ search = .done → rest = .done) := by
  induction limit generalizing answers search with
  | zero => exact ⟨search, rfl, yields, fun beyond => beyond.resolve_left (Nat.not_lt_zero _)⟩
  | succ limit ih =>
    cases yields with
    | ended => exact ⟨.done, rfl, .ended, fun _ => rfl⟩
    | @rules next last =>
      -- Reading the rules goes on to the end at once, since there are none.
      have stopped : base.next (.rules key next) = (.ended, base) := by
        rw [BeliefBase.next, none, last]
        rfl
      refine ⟨.done, ?_, .ended, fun _ => rfl⟩
      rw [BeliefBase.take, stopped]
      rfl
    | @answer answers θ rest later =>
      obtain ⟨left, taken, yields, ended⟩ := ih later
      refine ⟨left, ?_, yields, fun beyond => ?_⟩
      · rw [BeliefBase.take, BeliefBase.next]
        dsimp only
        rw [taken]
        rfl
      · rcases beyond with short | done
        · exact ended (.inl (Nat.lt_of_succ_lt_succ short))
        · cases done

end Search

namespace BeliefBase

section Changing

variable {base after : BeliefBase} {fact pattern : Term} {key : Indicator}

theorem Ordered.perform (ordered : base.Ordered) (check : Bool) (edit : Edit) :
    (edit.perform check base).Ordered := by
  cases edit with
  | assert fact => exact ordered.asserting fact
  | retract pattern => exact ordered.retracting check pattern
  | remove pattern θ => exact ordered.removing check pattern θ
  | replace fact => exact ordered.replacing check fact
  | addRule rule => exact ordered.addRule rule

/-- A change that adds no rule leaves the rules as they were. -/
theorem sameRules_perform (check : Bool) (base : BeliefBase) {edit : Edit}
    (other : ∀ rule, edit ≠ .addRule rule) : SameRules base (edit.perform check base) := by
  cases edit with
  | assert fact => exact sameRules_asserting base fact
  | retract pattern => exact sameRules_retract base check pattern
  | remove pattern θ => exact sameRules_removing base check pattern θ
  | replace fact => exact sameRules_replacing base check fact
  | addRule rule => exact absurd rfl (other rule)

/-- Only a rule of a name and arity changes the rules that are filed there. -/
theorem rules_perform (check : Bool) (base : BeliefBase) {edit : Edit}
    (spared : ∀ rule, edit = .addRule rule → rule.head.indicator? ≠ some key) :
    (edit.perform check base).ruleGroups.get key = base.ruleGroups.get key := by
  by_cases adds : ∃ rule, edit = .addRule rule
  · obtain ⟨rule, rfl⟩ := adds
    rw [Edit.perform, BeliefBase.addRule]
    split
    next other filed =>
      have different : key ≠ other := fun same => spared rule rfl (same ▸ filed)
      rw [Groups.push, Groups.get_put, if_neg different]
    next => rfl
  · rw [(sameRules_perform check base fun rule same => adds ⟨rule, same⟩).groups]

/-- After a change there are the rules from before, and the one that it adds. -/
theorem mem_rules_perform {check : Bool} {edit : Edit} {rule : Rule}
    (member : rule ∈ (edit.perform check base).rules) :
    rule ∈ base.rules ∨ edit = .addRule rule := by
  by_cases adds : ∃ rule, edit = .addRule rule
  · obtain ⟨added, rfl⟩ := adds
    exact (mem_rules_addRule member).imp id fun same => congrArg Edit.addRule same.symm
  · have same := sameRules_perform check base fun rule same => adds ⟨rule, same⟩
    exact .inl (by rwa [BeliefBase.rules, same.groups] at member)

theorem renamings_perform (check : Bool) (base : BeliefBase) (edit : Edit) :
    (edit.perform check base).renamings = base.renamings := by
  by_cases adds : ∃ rule, edit = .addRule rule
  · obtain ⟨added, rfl⟩ := adds
    exact base.renamings_addRule added
  · exact (sameRules_perform check base fun rule same => adds ⟨rule, same⟩).renamings

end Changing

/-- What happens to searches and their base: the base is changed, or one of the searches is resumed
for at most so many answers. -/
inductive Turn (ι : Type) where
  | change (edit : Edit)
  | resume (i : ι) (limit : Nat)

namespace Turn

variable {ι : Type}

/-- A turn that adds no rule under a key. -/
def Spares (key : Indicator) (turn : Turn ι) : Prop :=
  ∀ rule, turn = .change (.addRule rule) → rule.head.indicator? ≠ some key

/-- How many answers a turn asks of a search. -/
def asked [DecidableEq ι] (i : ι) : Turn ι → Nat
  | .change _ => 0
  | .resume j limit => if j = i then limit else 0

/-- How many answers a schedule asks of a search. -/
def requested [DecidableEq ι] (i : ι) : List (Turn ι) → Nat
  | [] => 0
  | turn :: later => turn.asked i + requested i later

theorem requested_append [DecidableEq ι] (i : ι) (first later : List (Turn ι)) :
    requested i (first ++ later) = requested i first + requested i later := by
  induction first with
  | nil => exact (Nat.zero_add _).symm
  | cons turn first ih => rw [List.cons_append, requested, requested, ih, Nat.add_assoc]

theorem requested_eq_zero [DecidableEq ι] {i : ι} {schedule : List (Turn ι)}
    (unasked : ∀ turn ∈ schedule, turn.asked i = 0) : requested i schedule = 0 := by
  induction schedule with
  | nil => rfl
  | cons turn schedule ih =>
    obtain ⟨none, later⟩ := List.forall_mem_cons.mp unasked
    rw [requested, none, ih later]

/-- A schedule never asks anything of a search, or there is a turn at which the search begins. -/
theorem never_or_begins [DecidableEq ι] (i : ι) (schedule : List (Turn ι)) :
    (∀ turn ∈ schedule, turn.asked i = 0) ∨
      ∃ n behind, schedule =
        schedule.takeWhile (fun turn => turn.asked i = 0) ++ .resume i (n + 1) :: behind := by
  induction schedule with
  | nil => exact .inl fun _ member => nomatch member
  | cons turn schedule ih =>
    by_cases none : turn.asked i = 0
    · rcases ih with never | ⟨n, behind, divided⟩
      · exact .inl (List.forall_mem_cons.mpr ⟨none, never⟩)
      · refine .inr ⟨n, behind, ?_⟩
        rw [List.takeWhile_cons_of_pos (by simpa using none), List.cons_append, ← divided]
    · right
      rw [List.takeWhile_cons_of_neg (by simpa using none)]
      cases turn with
      | change edit => exact absurd rfl none
      | resume j limit =>
        by_cases own : j = i
        · subst own
          cases limit with
          | zero => exact absurd (if_pos rfl) none
          | succ n => exact ⟨n, schedule, rfl⟩
        · exact absurd (if_neg own) none

end Turn

namespace Streams

variable {ι : Type} [DecidableEq ι]

def act (check : Bool) (streams : Streams ι) : Turn ι → Streams ι
  | .change edit => { streams with base := edit.perform check streams.base }
  | .resume i limit => streams.resume (i, limit)

/-- The searches and their base after some turns. -/
def run (check : Bool) (streams : Streams ι) (schedule : List (Turn ι)) : Streams ι :=
  schedule.foldl (act check) streams

end Streams

section Waiting

variable {ι : Type} [DecidableEq ι] {streams : Streams ι} {i : ι} {search : Search}
  {key : Indicator} {turn : Turn ι} {schedule : List (Turn ι)} {check : Bool}

/-- A search that was not resumed yet, of a base without rules under a key. -/
structure Streams.Waits (streams : Streams ι) (i : ι) (search : Search) (key : Indicator) :
    Prop where
  ordered : streams.base.Ordered
  unruled : streams.base.ruleGroups.get key = []
  rest : streams.rest i = search
  found : streams.found i = []
  fault : streams.fault i = none

theorem Streams.Waits.act (waits : streams.Waits i search key) (check : Bool)
    (spared : turn.Spares key) (unasked : turn.asked i = 0) :
    (streams.act check turn).Waits i search key := by
  cases turn with
  | change edit =>
    refine ⟨waits.ordered.perform check edit, ?_, waits.rest, waits.found, waits.fault⟩
    rw [Streams.act, rules_perform check _ fun rule same => spared rule (by rw [same])]
    exact waits.unruled
  | resume j limit =>
    obtain ⟨n, -, same⟩ := streams.base_resume (j, limit)
    have ordered : (streams.resume (j, limit)).base.Ordered := same ▸ waits.ordered.renamed n
    have unruled : (streams.resume (j, limit)).base.ruleGroups.get key = [] := by
      rw [same, waits.unruled]
    by_cases own : j = i
    · subst own
      rw [Turn.asked, if_pos rfl] at unasked
      subst unasked
      have nothing : streams.base.take 0 (streams.rest j) =
          (⟨[], none, streams.rest j⟩, streams.base) := rfl
      obtain ⟨rest, found, fault⟩ := Streams.resume_self nothing
      refine ⟨ordered, unruled, rest.trans waits.rest, ?_, ?_⟩
      · exact found.trans ((List.append_nil _).trans waits.found)
      · exact fault.trans ((Option.or_none ..).trans waits.fault)
    · obtain ⟨rest, found, fault⟩ := streams.resume_of_ne own limit
      exact ⟨ordered, unruled, rest.trans waits.rest, found.trans waits.found,
        fault.trans waits.fault⟩

theorem Streams.Waits.run (waits : streams.Waits i search key) (check : Bool)
    (spared : ∀ turn ∈ schedule, turn.Spares key) (unasked : ∀ turn ∈ schedule, turn.asked i = 0) :
    (streams.run check schedule).Waits i search key := by
  induction schedule generalizing streams with
  | nil => exact waits
  | cons turn schedule ih =>
    obtain ⟨first, others⟩ := List.forall_mem_cons.mp spared
    obtain ⟨none, later⟩ := List.forall_mem_cons.mp unasked
    exact ih (waits.act check first none) others later

end Waiting

section Delivering

variable {ι : Type} [DecidableEq ι] {streams : Streams ι} {i : ι} {answers : List Substitution}
  {fault : Option Fault} {key : Indicator} {turn : Turn ι} {schedule : List (Turn ι)} {asked : Nat}

/-- A search that has given the first of some answers, as many as were asked of it, and has the others
left to give, of a base without rules under a key. -/
structure Streams.Delivers (streams : Streams ι) (i : ι) (key : Indicator)
    (answers : List Substitution) (fault : Option Fault) (asked : Nat) : Prop where
  unruled : streams.base.ruleGroups.get key = []
  found : streams.found i = answers.take asked
  left : (streams.rest i).Yields key (answers.drop asked)
  ended : answers.length < asked → streams.rest i = .done
  fault : streams.fault i = fault

theorem Streams.Delivers.act (delivers : streams.Delivers i key answers fault asked) (check : Bool)
    (spared : turn.Spares key) :
    (streams.act check turn).Delivers i key answers fault (asked + turn.asked i) := by
  cases turn with
  | change edit =>
    refine ⟨?_, delivers.found, delivers.left, delivers.ended, delivers.fault⟩
    rw [Streams.act, rules_perform check _ fun rule same => spared rule (by rw [same])]
    exact delivers.unruled
  | resume j limit =>
    obtain ⟨n, -, same⟩ := streams.base_resume (j, limit)
    have unruled : (streams.resume (j, limit)).base.ruleGroups.get key = [] := by
      rw [same, delivers.unruled]
    rw [Turn.asked]
    split
    next own =>
      subst own
      obtain ⟨rest, taken, left, ended⟩ := delivers.left.take delivers.unruled limit
      obtain ⟨onward, found, stop⟩ := Streams.resume_self taken
      refine ⟨unruled, ?_, ?_, fun short => ?_, ?_⟩
      · exact found.trans (by rw [delivers.found, List.take_add])
      · rw [List.drop_drop] at left
        exact onward.symm ▸ left
      · refine onward.trans (ended ?_)
        rcases Nat.lt_or_ge answers.length asked with beyond | within
        · exact .inr (delivers.ended beyond)
        · refine .inl ?_
          rw [List.length_drop]
          omega
      · exact stop.trans ((Option.or_none ..).trans delivers.fault)
    next other =>
      obtain ⟨rest, found, fault⟩ := streams.resume_of_ne other limit
      exact ⟨unruled, found.trans delivers.found, rest ▸ delivers.left,
        fun short => rest.trans (delivers.ended short), fault.trans delivers.fault⟩

theorem Streams.Delivers.run (delivers : streams.Delivers i key answers fault asked) (check : Bool)
    (spared : ∀ turn ∈ schedule, turn.Spares key) :
    (streams.run check schedule).Delivers i key answers fault
      (asked + Turn.requested i schedule) := by
  induction schedule generalizing streams asked with
  | nil => exact delivers
  | cons turn schedule ih =>
    obtain ⟨first, others⟩ := List.forall_mem_cons.mp spared
    have later := ih (delivers.act check first) others
    rwa [Nat.add_assoc] at later

end Delivering

section Beginning

variable {ι : Type} [DecidableEq ι] {streams : Streams ι} {i : ι} {literal : Term}
  {θ : Substitution} {key : Indicator} {limits : Limits}

/-- A question that is resumed for the first time gives the first answers from the facts that are in
the base then, and has the others left. -/
theorem Streams.Waits.begin (waits : streams.Waits i (.query limits literal θ) key)
    (filed : (θ.walk literal).indicator? = some key) (notTruth : θ.walk literal ≠ Term.truth)
    (notFalsity : θ.walk literal ≠ Term.falsity) (n : Nat) :
    (streams.resume (i, n + 1)).Delivers i key
      (if limits.maxDepth < 0 then []
        else streams.base.facts.filterMap (θ.unify? limits.occursCheck literal))
      (if limits.maxDepth < 0 then some (.tooDeep limits.maxDepth (θ.apply literal)) else none)
      (n + 1) := by
  obtain ⟨m, -, same⟩ := streams.base_resume (i, n + 1)
  have unruled : (streams.resume (i, n + 1)).base.ruleGroups.get key = [] := by
    rw [same, waits.unruled]
  obtain ⟨prove, reads⟩ := Search.query_filed limits filed notTruth notFalsity
  split
  next negative =>
    have taken : streams.base.take (n + 1) (streams.rest i) =
        (⟨[], some (.tooDeep limits.maxDepth (θ.apply literal)), .done⟩, streams.base) := by
      rw [waits.rest, reads, if_pos negative]
      rfl
    obtain ⟨rest, found, fault⟩ := Streams.resume_self taken
    refine ⟨unruled, ?_, ?_, fun _ => rest, ?_⟩
    · exact found.trans (by rw [waits.found]; rfl)
    · exact rest.symm ▸ .ended
    · exact fault.trans (by rw [waits.fault, Option.none_or])
  next enough =>
    obtain ⟨left, taken, yields, ended⟩ :=
      (Search.yields_matching key limits.occursCheck prove (θ.walk literal) θ
        (streams.base.groups.get key)).take waits.unruled (n + 1)
    rw [waits.ordered.filterMap_get filed] at taken yields ended
    have read : streams.base.take (n + 1) (streams.rest i) =
        streams.base.take (n + 1) ((Search.matching limits.occursCheck (θ.walk literal) θ
          (streams.base.groups.get key)).append fun _ =>
            .rules key (Search.applying limits.occursCheck prove (θ.walk literal) θ)) := by
      rw [waits.rest, reads, if_neg enough]
      rfl
    obtain ⟨rest, found, fault⟩ := Streams.resume_self (read.trans taken)
    refine ⟨unruled, ?_, rest.symm ▸ yields, fun short => rest.trans (ended (.inl short)), ?_⟩
    · exact found.trans (by rw [waits.found, List.nil_append])
    · exact fault.trans (by rw [waits.fault, Option.none_or])

/-- Whatever happens to the base and to the other searches before, between and after its resumptions, a
question gives one answer for each fact that it matches and that was in the base when it was first
resumed, in their order: the first of these answers, as many as were asked of it. -/
theorem suspended_unaffected {base : BeliefBase} (built : base.Built) (limits : Limits)
    {searches : ι → Search} (asks : searches i = .query limits literal θ) (acyclic : θ.Acyclic)
    (filed : (θ.walk literal).indicator? = some key) (notTruth : θ.walk literal ≠ Term.truth)
    (notFalsity : θ.walk literal ≠ Term.falsity)
    (unruled : ∀ rule ∈ base.rules, rule.head.indicator? ≠ some key)
    {schedule : List (Turn ι)} (spared : ∀ turn ∈ schedule, turn.Spares key) :
    let check := limits.occursCheck
    let begun := (Streams.opened base searches).run check
      (schedule.takeWhile fun turn => turn.asked i = 0)
    let streams := (Streams.opened base searches).run check schedule
    let asked := Turn.requested i schedule
    let matched := begun.base.facts.filterMap (θ.unify? check literal)
    (∀ fact ∈ begun.base.facts,
      ((θ.unify? check literal fact).isSome = true ↔ θ.Allows literal fact) ∧
        (θ.Allows literal fact → fact.indicator? = some key)) ∧
    (0 ≤ limits.maxDepth → streams.found i = matched.take asked ∧ streams.fault i = none ∧
      (matched.length < asked → streams.rest i = .done)) ∧
    (limits.maxDepth < 0 → streams.found i = [] ∧
      (0 < asked → streams.fault i = some (.tooDeep limits.maxDepth (θ.apply literal)))) := by
  intro check begun streams asked matched
  have opened : (Streams.opened base searches).Waits i (.query limits literal θ) key :=
    ⟨built.ordered, built.ordered.rules_get_eq_nil unruled, asks, rfl, rfl⟩
  have unasked : ∀ turn ∈ schedule.takeWhile fun turn => turn.asked i = 0, turn.asked i = 0 :=
    fun turn member => by simpa using List.all_eq_true.mp List.all_takeWhile turn member
  have waits : begun.Waits i (.query limits literal θ) key :=
    opened.run check (fun turn member => spared turn ((List.takeWhile_prefix _).subset member))
      unasked
  refine ⟨fun fact believed => ?_, ?_⟩
  · have ground := waits.ordered.ground fact believed
    have allows := acyclic.isSome_unify?_iff ground check literal
    refine ⟨allows, fun allowed => ?_⟩
    by_contra unlike
    rw [← allows, Substitution.unify?_unlike ground filed unlike] at allowed
    cases allowed
  rcases Turn.never_or_begins i schedule with never | ⟨n, behind, divided⟩
  · have waiting := opened.run check spared never
    have none : asked = 0 := Turn.requested_eq_zero never
    rw [none]
    refine ⟨fun _ => ⟨waiting.found, waiting.fault, ?_⟩, fun _ => ⟨waiting.found, ?_⟩⟩
    · exact fun short => absurd short (Nat.not_lt_zero _)
    · exact fun some => absurd some (Nat.lt_irrefl 0)
  · have later : ∀ turn ∈ behind, turn.Spares key :=
      fun turn member => spared turn (by rw [divided]; simp [member])
    have whole : streams = (begun.resume (i, n + 1)).run check behind := by
      show (Streams.opened base searches).run check schedule = _
      rw [Streams.run, divided, List.foldl_append]
      rfl
    have count : asked = n + 1 + Turn.requested i behind := by
      show Turn.requested i schedule = _
      rw [divided, Turn.requested_append, Turn.requested_eq_zero unasked, Turn.requested,
        Turn.asked, if_pos rfl, Nat.zero_add]
    have delivers := (waits.begin filed notTruth notFalsity n).run check later
    rw [← whole, ← count] at delivers
    refine ⟨fun enough => ?_, fun negative => ?_⟩
    · rw [if_neg (Int.not_lt.mpr enough), if_neg (Int.not_lt.mpr enough)] at delivers
      exact ⟨delivers.found, delivers.fault, delivers.ended⟩
    · rw [if_pos negative, if_pos negative] at delivers
      exact ⟨delivers.found.trans List.take_nil, fun _ => delivers.fault⟩

end Beginning

/-- Two questions for `p(X)`. Between the two resumptions of the first, all facts are retracted, another
one is added, and the second question begins. The first finds both of the old facts and ends, the
second finds the new one. -/
theorem suspended_unaffected_twice :
    let fact (n : Int) : Term := .compound "p" [.number (.int n)]
    let base : BeliefBase := ⟨[(⟨"p", 1⟩, [fact 1, fact 2])], [], 0⟩
    let literal : Term := .compound "p" [.var ⟨"X", []⟩]
    let schedule : List (Turn Bool) :=
      [.resume false 1, .change (.retract literal), .change (.assert (fact 3)), .resume true 2,
        .resume false 5]
    let streams := (Streams.opened base fun _ => .query {} literal .empty).run false schedule
    base.Built ∧
      (streams.found false).map (Substitution.texts [⟨"X", []⟩]) = [[("X", "1")], [("X", "2")]] ∧
      (streams.found true).map (Substitution.texts [⟨"X", []⟩]) = [[("X", "3")]] := by
  intro fact base literal schedule streams
  have built : base.Built := .asserted (.asserted .empty (fact 1)) (fact 2)
  have spared : ∀ turn ∈ schedule, turn.Spares ⟨"p", 1⟩ := by
    simp [schedule, Turn.Spares]
  have notTruth : Substitution.empty.walk literal ≠ Term.truth := by
    simp [literal, Term.truth]
  have notFalsity : Substitution.empty.walk literal ≠ Term.falsity := by
    simp [literal, Term.falsity]
  have unruled : ∀ rule ∈ base.rules, rule.head.indicator? ≠ some ⟨"p", 1⟩ := by
    simp [base, rules, Groups.toList]
  let searches : Bool → Search := fun _ => .query {} literal .empty
  have asks (i : Bool) : searches i = .query {} literal .empty := rfl
  have unaffected (i : Bool) := suspended_unaffected built {} (asks i)
    Substitution.acyclic_empty rfl notTruth notFalsity unruled spared
  refine ⟨built, ?_, ?_⟩
  · rw [((unaffected false).2.1 (by decide)).1]
    decide +kernel
  · rw [((unaffected true).2.1 (by decide)).1]
    decide +kernel

end BeliefBase

end AgentSpeak
