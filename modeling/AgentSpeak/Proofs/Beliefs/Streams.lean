import AgentSpeak.Proofs.Beliefs.Varying
import AgentSpeak.Proofs.Unification.Run

/-!
Several searches of one base, resumed in any order. All of them number their renamings of rules with
the one count of the base, so the names of variables in an answer depend on what the other searches
did before. What an answer says of the variables of the question does not.
-/

namespace AgentSpeak

/-- Two sides that start from the same variables, which no later renaming of a rule makes. -/
def Stage.unchanged (texts : Prop) (n : Nat) : Stage texts where
  toCorrespondence := .same texts (Variable.Predates n)
  count := n
  count' := n
  predates _ known := ⟨known, known⟩

namespace BeliefBase

section Running

variable {base other : BeliefBase} {search search' rest : Search} {θ : Substitution} {fault : Fault}
  {after : BeliefBase}

theorem all_ended (ended : base.next search = (.ended, after)) :
    base.all search = ([], none, after) := by
  induction search generalizing base with
  | done =>
    cases ended
    rfl
  | failed fault => cases ended
  | answer θ rest ih => cases ended
  | facts key next ih => exact ih _ ended
  | rules key next ih => exact ih _ ended
  | fresh next ih => exact ih _ ended

theorem all_failed (failed : base.next search = (.failed fault, after)) :
    base.all search = ([], some fault, after) := by
  induction search generalizing base with
  | done => cases failed
  | failed fault =>
    cases failed
    rfl
  | answer θ rest ih => cases failed
  | facts key next ih => exact ih _ failed
  | rules key next ih => exact ih _ failed
  | fresh next ih => exact ih _ failed

theorem all_found (found : base.next search = (.found θ rest, after)) :
    base.all search = (θ :: (after.all rest).1, (after.all rest).2) := by
  induction search generalizing base with
  | done => cases found
  | failed fault => cases found
  | answer θ rest ih =>
    cases found
    rfl
  | facts key next ih => exact ih _ found
  | rules key next ih => exact ih _ found
  | fresh next ih => exact ih _ found

/-- Chunks of answers change nothing but how many renamings there were. -/
theorem take_eq (base : BeliefBase) (limit : Nat) (search : Search) :
    ∃ n, base.renamings ≤ n ∧ (base.take limit search).2 = { base with renamings := n } := by
  induction limit generalizing base search with
  | zero => exact ⟨base.renamings, Nat.le_refl _, rfl⟩
  | succ limit ih =>
    obtain ⟨n, later, same⟩ := base.next_eq search
    rw [take]
    rcases stop : base.next search with ⟨ended | failed | ⟨θ, rest⟩, after⟩ <;> rw [stop] at same
    · exact ⟨n, later, same⟩
    · exact ⟨n, later, same⟩
    · obtain ⟨m, further, last⟩ := ih after rest
      subst same
      exact ⟨m, Nat.le_trans later further, last⟩

end Running

/-- Searches of one base, each with the answers that it has given so far and the fault that has
ended it, if one did. -/
structure Streams (ι : Type) where
  base : BeliefBase
  rest : ι → Search
  found : ι → List Substitution
  fault : ι → Option Fault

namespace Streams

variable {ι : Type} [DecidableEq ι]

/-- Searches that have not begun. -/
def opened (base : BeliefBase) (searches : ι → Search) : Streams ι :=
  ⟨base, searches, fun _ => [], fun _ => none⟩

/-- One of the searches is resumed for at most so many answers. -/
def resume (streams : Streams ι) (turn : ι × Nat) : Streams ι :=
  let (progress, after) := streams.base.take turn.2 (streams.rest turn.1)
  { base := after
    rest := Function.update streams.rest turn.1 progress.rest
    found := Function.update streams.found turn.1 (streams.found turn.1 ++ progress.answers)
    fault := Function.update streams.fault turn.1 ((streams.fault turn.1).or progress.fault) }

/-- Whichever search is resumed, the base changes in nothing but how many renamings there were. -/
theorem base_resume (streams : Streams ι) (turn : ι × Nat) :
    ∃ n, streams.base.renamings ≤ n ∧
      (streams.resume turn).base = { streams.base with renamings := n } :=
  streams.base.take_eq turn.2 (streams.rest turn.1)

theorem resume_self {streams : Streams ι} {i : ι} {limit : Nat} {progress : Progress}
    {after : BeliefBase}
    (taken : streams.base.take limit (streams.rest i) = (progress, after)) :
    (streams.resume (i, limit)).rest i = progress.rest ∧
      (streams.resume (i, limit)).found i = streams.found i ++ progress.answers ∧
      (streams.resume (i, limit)).fault i = (streams.fault i).or progress.fault := by
  rw [resume, taken]
  exact ⟨Function.update_self .., Function.update_self .., Function.update_self ..⟩

/-- The other searches stay as they were. -/
theorem resume_of_ne {streams : Streams ι} {i j : ι} (other : j ≠ i) (limit : Nat) :
    (streams.resume (j, limit)).rest i = streams.rest i ∧
      (streams.resume (j, limit)).found i = streams.found i ∧
      (streams.resume (j, limit)).fault i = streams.fault i :=
  ⟨Function.update_of_ne other.symm .., Function.update_of_ne other.symm ..,
    Function.update_of_ne other.symm ..⟩

/-- The searches after they were resumed in some order, in chunks of any size. -/
def interleaved (streams : Streams ι) (schedule : List (ι × Nat)) : Streams ι :=
  schedule.foldl resume streams

/-- How many answers a schedule asks of one search. -/
def requested (schedule : List (ι × Nat)) (i : ι) : Nat :=
  match schedule with
  | [] => 0
  | turn :: later => (if turn.1 = i then turn.2 else 0) + requested later i

end Streams

/-- A search was asked for so many answers in all, and shares its base with others. It has given the
first answers of the whole search, and keeps step with what a search that is alone with its base has
left then. -/
structure Follows (first : Stage True) (whole : List Substitution × Option Fault) (asked : Nat)
    (stage : Stage True) (alone : BeliefBase) (left : Search) (shared : BeliefBase) (rest : Search)
    (found : List Substitution) (fault : Option Fault) : Prop where
  leads : first.Leads stage
  bases : alone.Varies True shared
  fits : stage.Fits alone shared
  varies : left.Varies stage rest
  inside : ∀ θ ∈ whole.1.take asked, θ.Inside stage.knows
  found : found = (whole.1.take asked).map (Substitution.rename stage.name)
  others : (alone.all left).1 = whole.1.drop asked
  before : asked ≤ whole.1.length → (alone.all left).2.1 = whole.2 ∧ fault = none
  behind : whole.1.length < asked →
    (alone.all left).2.1 = none ∧ rest = .done ∧ Option.Rel (Fault.Alike True) whole.2 fault

section Following

variable {first stage : Stage True} {whole : List Substitution × Option Fault} {asked : Nat}
  {alone shared : BeliefBase} {left rest : Search} {found : List Substitution}
  {fault : Option Fault}

/-- A search that has come to its end or to a fault gives no more answers. -/
theorem Follows.stop {later : Stage True} {after after' : BeliefBase} {last : Option Fault}
    (follows : Follows first whole asked stage alone left shared rest found fault)
    (onwards : stage.Leads later) (bases : after.Varies True after')
    (fits : later.Fits after after')
    (none : (alone.all left).1 = [])
    (alike : Option.Rel (Fault.Alike True) (alone.all left).2.1 last) (more : Nat) :
    Follows first whole (asked + (more + 1)) later after .done after' .done found
      (fault.or last) := by
  have short : whole.1.length ≤ asked := List.drop_eq_nil_iff.mp (follows.others.symm.trans none)
  have all : whole.1.take (asked + (more + 1)) = whole.1.take asked := by
    rw [List.take_of_length_le short, List.take_of_length_le (by omega)]
  refine ⟨follows.leads.trans onwards, bases, fits, .done, ?_, ?_, ?_, by omega,
    fun _ => ⟨rfl, rfl, ?_⟩⟩
  · rw [all]
    exact fun θ member => onwards.inside (follows.inside θ member)
  · rw [all, follows.found]
    exact List.map_congr_left fun θ member => (onwards.rename (follows.inside θ member)).symm
  · exact (List.drop_of_length_le (by omega)).symm
  · rcases Nat.lt_or_eq_of_le short with already | just
    · obtain ⟨spent, -, reported⟩ := follows.behind already
      rw [spent] at alike
      cases alike
      simpa using reported
    · obtain ⟨same, clear⟩ := follows.before just.ge
      rw [← same, clear, Option.none_or]
      exact alike

/-- One more answer is the next one of the whole search. -/
theorem Follows.found_next {later : Stage True} {after after' : BeliefBase} {θ : Substitution}
    {more more' : Search}
    (follows : Follows first whole asked stage alone left shared rest found fault)
    (next : alone.next left = (.found θ more, after)) (onwards : stage.Leads later)
    (bases : after.Varies True after') (fits : later.Fits after after')
    (inside : θ.Inside later.knows) (varies : more.Varies later more') :
    Follows first whole (asked + 1) later after more after' more'
      (found ++ [θ.rename later.name]) fault := by
  have all := all_found next
  have dropped : whole.1.drop asked = θ :: (after.all more).1 := by
    rw [← follows.others, all]
  have enough : asked < whole.1.length := by
    have length := congrArg List.length dropped
    rw [List.length_drop, List.length_cons] at length
    omega
  have taken : whole.1.take (asked + 1) = whole.1.take asked ++ [θ] := by
    rw [List.take_add_one, ← List.head?_drop, dropped]
    rfl
  obtain ⟨same, clear⟩ := follows.before enough.le
  rw [all] at same
  refine ⟨follows.leads.trans onwards, bases, fits, varies, ?_, ?_, ?_, fun _ => ⟨same, clear⟩,
    by omega⟩
  · rw [taken]
    refine List.forall_mem_append.mpr ⟨fun θ member => onwards.inside (follows.inside θ member), ?_⟩
    exact List.forall_mem_singleton.mpr inside
  · rw [taken, List.map_append, follows.found]
    refine congrArg (· ++ _) (List.map_congr_left fun θ member => ?_)
    exact (onwards.rename (follows.inside θ member)).symm
  · rw [← List.tail_drop, dropped, List.tail_cons]

theorem Follows.take (follows : Follows first whole asked stage alone left shared rest found fault)
    (limit : Nat) :
    ∃ stage alone left, Follows first whole (asked + limit) stage alone left
      (shared.take limit rest).2 (shared.take limit rest).1.rest
      (found ++ (shared.take limit rest).1.answers)
      (fault.or (shared.take limit rest).1.fault) := by
  induction limit generalizing asked stage alone left shared rest found fault with
  | zero => exact ⟨stage, alone, left, by simpa [BeliefBase.take] using follows⟩
  | succ limit ih =>
    obtain ⟨later, onwards, fits, step⟩ := follows.bases.next follows.varies follows.fits
    have bases := follows.bases.after left rest
    rw [BeliefBase.take]
    rcases mine : alone.next left with ⟨stop, after⟩
    rcases ours : shared.next rest with ⟨stop', after'⟩
    rw [mine, ours] at step bases fits
    cases step with
    | ended =>
      have whole := all_ended mine
      refine ⟨later, after, .done, ?_⟩
      rw [List.append_nil]
      exact follows.stop onwards bases fits (by rw [whole]) (by rw [whole]; exact .none) limit
    | failed alike =>
      have whole := all_failed mine
      refine ⟨later, after, .done, ?_⟩
      rw [List.append_nil]
      exact follows.stop onwards bases fits (by rw [whole]) (by rw [whole]; exact .some alike) limit
    | found inside varies =>
      obtain ⟨stage, alone, left, last⟩ :=
        ih (follows.found_next mine onwards bases fits inside varies)
      refine ⟨stage, alone, left, ?_⟩
      rw [Nat.add_comm limit 1, ← Nat.add_assoc]
      simpa using last

/-- What the other searches do in the meantime does not matter. -/
theorem Follows.elsewhere
    (follows : Follows first whole asked stage alone left shared rest found fault) {n : Nat}
    (later : shared.renamings ≤ n) : Follows first whole asked stage alone left
      { shared with renamings := n } rest found fault where
  leads := follows.leads
  bases := follows.bases.renamed alone.renamings n
  fits := follows.fits.later (Nat.le_refl _) later
  varies := follows.varies
  inside := follows.inside
  found := follows.found
  others := follows.others
  before := follows.before
  behind := follows.behind

end Following

section Interleaving

variable {ι : Type} [DecidableEq ι]

/-- One of the searches of a base that they share follows a search that is alone. -/
def Streams.Follow (streams : Streams ι) (i : ι) (first : Stage True)
    (whole : List Substitution × Option Fault) (asked : Nat) : Prop :=
  ∃ stage alone left, Follows first whole asked stage alone left streams.base (streams.rest i)
    (streams.found i) (streams.fault i)

theorem Streams.Follow.resume {streams : Streams ι} {i : ι} {first : Stage True}
    {whole : List Substitution × Option Fault} {asked : Nat}
    (follow : streams.Follow i first whole asked) (turn : ι × Nat) :
    (streams.resume turn).Follow i first whole (asked + if turn.1 = i then turn.2 else 0) := by
  obtain ⟨stage, alone, left, follows⟩ := follow
  obtain ⟨j, limit⟩ := turn
  by_cases here : j = i
  · subst here
    obtain ⟨stage, alone, left, after⟩ := follows.take limit
    refine ⟨stage, alone, left, ?_⟩
    simpa only [Streams.resume, Function.update_self, ↓reduceIte] using after
  · obtain ⟨n, later, same⟩ := streams.base_resume (j, limit)
    obtain ⟨rest, found, fault⟩ := streams.resume_of_ne here limit
    refine ⟨stage, alone, left, ?_⟩
    rw [same, rest, found, fault, if_neg here, Nat.add_zero]
    exact follows.elsewhere later

/-- In every schedule a search follows the one that is alone. -/
theorem Streams.Follow.interleaved {streams : Streams ι} {i : ι} {first : Stage True}
    {whole : List Substitution × Option Fault} {asked : Nat}
    (follow : streams.Follow i first whole asked) (schedule : List (ι × Nat)) :
    (streams.interleaved schedule).Follow i first whole (asked + requested schedule i) := by
  induction schedule generalizing streams asked with
  | nil => exact follow
  | cons turn schedule ih =>
    have resumed := ih (follow.resume turn)
    rwa [Nat.add_assoc] at resumed

end Interleaving

/-- A base whose rules are named as they are read is a variant of itself. -/
theorem Ordered.varies_self {base : BeliefBase} (ordered : base.Ordered)
    (written : ∀ rule ∈ base.rules, ∀ v ∈ rule.head.vars ++ rule.body.vars, v.IsWritten) :
    base.Varies True base where
  groups := rfl
  ordered := ordered
  rules key := by
    refine List.forall₂_same.mpr fun rule member => Rule.varies_self ?_
    exact written rule (Groups.mem_toList_of_mem_get member)

/-- A search follows itself before it begins. -/
theorem follows_self {base : BeliefBase} (bases : base.Varies True base) (limits : Limits)
    {formula : Formula} {θ : Substitution}
    (formulaOver : formula.Over (Variable.Predates base.renamings))
    (inside : θ.Inside (Variable.Predates base.renamings)) :
    Follows (.unchanged True base.renamings)
      ((base.all (Search.solve limits formula θ)).1, (base.all (Search.solve limits formula θ)).2.1)
      0 (.unchanged True base.renamings) base (Search.solve limits formula θ) base
      (Search.solve limits formula θ) [] none where
  leads := .refl _
  bases := bases
  fits := ⟨Nat.le_refl _, Nat.le_refl _⟩
  varies := by
    have sameBindings : θ.rename id = θ := Substitution.rename_self fun _ _ => rfl
    let stage : Stage True := .unchanged True base.renamings
    have varies : Search.Varies stage _ _ := Search.varies_solve limits formulaOver inside
    rwa [show stage.name = id from rfl, Formula.rename_id, sameBindings] at varies
  inside _ member := nomatch member
  found := rfl
  others := rfl
  before _ := ⟨rfl, rfl⟩
  behind short := absurd short (Nat.not_lt_zero _)

/-- Searches that are resumed in any order, in chunks of any size, find what they find alone. After
any schedule each has given the first answers of the whole search, as many as were asked of it, with
the same texts for the variables of its formula and of its bindings. It has come to its end or to a
fault where the whole search does, with the same kind and message. -/
theorem interleaved_eq_alone {base : BeliefBase} (built : base.Built)
    (written : ∀ rule ∈ base.rules, ∀ v ∈ rule.head.vars ++ rule.body.vars, v.IsWritten)
    (limits : Limits) {ι : Type} [DecidableEq ι] {formula : ι → Formula} {start : ι → Substitution}
    (known : ∀ i, ∀ v ∈ (formula i).vars ++ (start i).vars, v.Predates base.renamings)
    (schedule : List (ι × Nat)) (i : ι) {wanted : List Variable}
    (own : wanted ⊆ (formula i).vars ++ (start i).vars) :
    let search i := Search.solve limits (formula i) (start i)
    let streams := (Streams.opened base search).interleaved schedule
    let asked := Streams.requested schedule i
    let (answers, fault, _) := base.all (search i)
    (streams.found i).map (Substitution.texts wanted) =
        (answers.take asked).map (Substitution.texts wanted) ∧
      (asked ≤ answers.length → streams.fault i = none) ∧
      (answers.length < asked → streams.rest i = .done ∧
        (streams.fault i).map (fun fault => (fault.kind, fault.message)) =
          fault.map fun fault => (fault.kind, fault.message)) := by
  obtain ⟨formulaOver, inside⟩ := List.forall_mem_append.mp (known i)
  have bases := built.ordered.varies_self written
  have begun : (Streams.opened base fun i => Search.solve limits (formula i) (start i)).Follow i
      (.unchanged True base.renamings) _ 0 :=
    ⟨_, _, _, follows_self bases limits formulaOver inside⟩
  obtain ⟨stage, alone, left, follows⟩ := begun.interleaved schedule
  rw [Nat.zero_add] at follows
  refine ⟨?_, fun enough => (follows.before enough).2, fun short => ?_⟩
  · rw [follows.found, List.map_map]
    refine List.map_congr_left fun θ member => ?_
    refine stage.texts_name trivial (follows.inside θ member) (fun v asked => ?_) fun v asked => ?_
    · exact follows.leads.keeps.knows (known i v (own asked))
    · exact follows.leads.keeps.name (known i v (own asked))
  · obtain ⟨-, ended, alike⟩ := follows.behind short
    refine ⟨ended, ?_⟩
    exact Fault.Alike.shown alike

/-- A base with the fact `q(1)` and the rule `p(f(X)) :- q(X)`. -/
def wrapping : BeliefBase :=
  addRule ⟨[(⟨"q", 1⟩, [.compound "q" [.number (.int 1)]])], [], 0⟩
    ⟨.compound "p" [.compound "f" [.var ⟨"X", []⟩]], .literal (.compound "q" [.var ⟨"X", []⟩])⟩

theorem built_wrapping : wrapping.Built :=
  .ruled (.asserted .empty (.compound "q" [.number (.int 1)])) _

theorem isWritten_wrapping :
    ∀ rule ∈ wrapping.rules, ∀ v ∈ rule.head.vars ++ rule.body.vars, v.IsWritten := by
  have rules : wrapping.rules = [⟨.compound "p" [.compound "f" [.var ⟨"X", []⟩]],
    .literal (.compound "q" [.var ⟨"X", []⟩])⟩] := rfl
  rw [rules, List.forall_mem_singleton]
  intro v occurs
  have same : v = ⟨"X", []⟩ := by simpa [Formula.vars] using occurs
  exact .inl (by simp [same])

/-- The question `p(A)`. -/
def wrapped : Formula :=
  .literal (.compound "p" [.var ⟨"A", []⟩])

theorem isWritten_wrapped : ∀ v ∈ wrapped.vars, v.IsWritten := by
  intro v occurs
  have same : v = ⟨"A", []⟩ := by simpa [wrapped, Formula.vars] using occurs
  exact .inl (by simp [same])

/-- Two searches for `p(A)`, the second one resumed in between the two resumptions of the first. The
first finds `A = f(1)` and then ends, although its rule was not the last one to be renamed. -/
theorem interleaved_eq_alone_twice :
    let streams := (Streams.opened wrapping fun _ : Bool =>
      Search.solve ⟨1, 0, true⟩ wrapped .empty).interleaved [(false, 1), (true, 1), (false, 1)]
    (streams.found false).map (Substitution.texts [⟨"A", []⟩]) = [[("A", "f(1)")]] ∧
      streams.fault false = none := by
  have known : ∀ _ : Bool, ∀ v ∈ wrapped.vars ++ Substitution.empty.vars,
      v.Predates wrapping.renamings := by
    intro _ v occurs
    rw [show Substitution.empty.vars = [] from rfl, List.append_nil] at occurs
    exact (isWritten_wrapped v occurs).predates _
  have own : [⟨"A", []⟩] ⊆ wrapped.vars ++ Substitution.empty.vars := by decide
  obtain ⟨texts, -, ended⟩ := interleaved_eq_alone built_wrapping isWritten_wrapping ⟨1, 0, true⟩
    known [(false, 1), (true, 1), (false, 1)] false own
  refine ⟨texts.trans (by decide +kernel), ?_⟩
  exact Option.map_eq_none_iff.mp ((ended (by decide +kernel)).2.trans (by decide +kernel))

/-- Bindings that use a name of a later renaming are not safe. With `A` bound to the variable `X#2`,
the search for `p(A)` finds `f(1)` alone, and nothing once another search has renamed the rule. -/
theorem interleaved_ne_alone :
    let start : Bool → Substitution := fun second =>
      if second then Substitution.empty.insert ⟨"A", []⟩ (.var ⟨"X", ["2"]⟩) else .empty
    let search second := Search.solve ⟨1, 0, true⟩ wrapped (start second)
    let streams := (Streams.opened wrapping search).interleaved [(false, 1), (true, 1)]
    wrapping.Built ∧
      (∀ rule ∈ wrapping.rules, ∀ v ∈ rule.head.vars ++ rule.body.vars, v.IsWritten) ∧
      (∀ v ∈ wrapped.vars, v.IsWritten) ∧ (∀ second, (start second).Acyclic) ∧
      ((wrapping.all (search true)).1.take 1).map (Substitution.texts [⟨"A", []⟩]) =
        [[("A", "f(1)")]] ∧
      streams.found true = [] := by
  refine ⟨built_wrapping, isWritten_wrapping, isWritten_wrapped, fun second => ?_,
    by decide +kernel, ?_⟩
  · cases second
    · exact Substitution.acyclic_empty
    · exact Substitution.acyclic_single _ _ (by decide)
  · exact List.length_eq_zero_iff.mp (by decide +kernel)

end BeliefBase

end AgentSpeak
