import AgentSpeak.Proofs.Beliefs.Snapshot
import AgentSpeak.Proofs.Unification.Termination

/-!
What every unification keeps. All answers of a search have it, if the bindings have it that the search
starts from, whatever the search reads on its way. So answers only ever add bindings, and with the
occurs check they stay acyclic: a term resolved before a question stands for the same behind it.
-/

namespace AgentSpeak

open Substitution

namespace Search

variable {limits : Limits} {kept : Substitution → Prop} {θ : Substitution}

/-- What every unification keeps, all answers have. -/
def Kept (kept : Substitution → Prop) (search : Search) : Prop :=
  Within (fun _ => True) (fun _ => True) kept search

theorem solvingWith_kept {check : Bool} {ask : Term → Substitution → Search}
    (unified : ∀ θ s t θ', kept θ → Substitution.unify? check s t θ = some θ' → kept θ')
    (asks : ∀ literal θ, kept θ → (ask literal θ).Kept kept) (formula : Formula) (own : kept θ) :
    (solvingWith check ask formula θ).Kept kept := by
  induction formula generalizing θ with
  | literal term => exact asks term θ own
  | negation formula ih => exact (ih own).refute own
  | conjunction left right leftIh rightIh =>
    exact Within.bind (leftIh own) fun middle first => rightIh first
  | disjunction left right leftIh rightIh => exact Within.append (leftIh own) (rightIh own)
  | comparison relation left right =>
    refine within_ofResult fun θ' done => ?_
    split at done
    next =>
      obtain ⟨s, first, rest⟩ := bind_eq_ok_iff.mp done
      obtain ⟨t, second, found⟩ := bind_eq_ok_iff.mp rest
      exact unified θ s t θ' own (Except.ok.inj found)
    next =>
      obtain ⟨holds, compared, chosen⟩ := bind_eq_ok_iff.mp done
      have chosen := Except.ok.inj chosen
      split at chosen
      next =>
        cases chosen
        exact own
      next => cases chosen

theorem queryWithin_kept (unified : ∀ θ s t θ', kept θ →
      Substitution.unify? limits.occursCheck s t θ = some θ' → kept θ')
    (levels : Nat) (literal : Term) (own : kept θ) :
    (queryWithin limits levels literal θ).Kept kept := by
  induction levels generalizing literal θ with
  | zero => trivial
  | succ levels ih =>
    refine within_asking (fun _ => own) ?_ ?_
    · exact fun fact _ θ' found => unified θ _ fact θ' own found
    · exact fun rule _ n θ' found => solvingWith_kept unified (fun literal θ => ih literal) _
        (unified θ _ _ θ' own found)

theorem query_kept (unified : ∀ θ s t θ', kept θ →
      Substitution.unify? limits.occursCheck s t θ = some θ' → kept θ')
    (literal : Term) (own : kept θ) : (query limits literal θ).Kept kept :=
  queryWithin_kept unified _ literal own

theorem solve_kept (unified : ∀ θ s t θ', kept θ →
      Substitution.unify? limits.occursCheck s t θ = some θ' → kept θ')
    (formula : Formula) (own : kept θ) : (solve limits formula θ).Kept kept :=
  solvingWith_kept unified (fun literal _ => query_kept unified literal) formula own

end Search

namespace BeliefBase

variable {base after : BeliefBase} {search : Search} {kept : Substitution → Prop}

theorem kept_of_first {answer : Substitution} (all : search.Kept kept)
    (found : base.first search = (.ok (some answer), after)) : kept answer := by
  unfold first at found
  split at found
  next => cases found
  next => cases found
  next θ rest last reached =>
    cases found
    exact (found_of_within (fun _ _ => trivial) (fun _ _ => trivial) all
      (congrArg Prod.fst reached)).1

end BeliefBase

namespace BeliefBase

variable {base : BeliefBase} {search : Search} {kept : Substitution → Prop}

theorem kept_of_all (all : search.Kept kept) : ∀ θ ∈ (base.all search).1, kept θ :=
  answers_of_within (fun _ _ => trivial) (fun _ _ => trivial) all

theorem all_of_answers {after : BeliefBase} {found : List Substitution}
    (answered : base.answers search = (.ok found, after)) : (base.all search).1 = found := by
  unfold answers at answered
  split at answered
  next answers last all =>
    cases answered
    rw [all]
  next => cases answered

/-- What is kept is kept by each chunk of answers and by what is left of the search. -/
theorem kept_of_take (base : BeliefBase) (all : search.Kept kept) (limit : Nat) :
    (∀ θ ∈ (base.take limit search).1.answers, kept θ) ∧
      (base.take limit search).1.rest.Kept kept := by
  induction limit generalizing base search with
  | zero => exact ⟨fun _ member => (List.not_mem_nil member).elim, all⟩
  | succ limit ih =>
    rw [BeliefBase.take]
    rcases stop : base.next search with ⟨ended | failed | ⟨θ, rest⟩, after⟩
    · exact ⟨fun _ member => (List.not_mem_nil member).elim, trivial⟩
    · exact ⟨fun _ member => (List.not_mem_nil member).elim, trivial⟩
    · obtain ⟨own, others⟩ := found_of_within (fun _ _ => trivial) (fun _ _ => trivial) all
        (congrArg Prod.fst stop)
      obtain ⟨answers, left⟩ := ih after others
      exact ⟨List.forall_mem_cons.mpr ⟨own, answers⟩, left⟩

section Sharing

variable {ι : Type} [DecidableEq ι] {streams : Streams ι} {i : ι}

/-- What a search keeps, its answers so far have, and those that are still to come. -/
structure Streams.Keeps (streams : Streams ι) (i : ι) (kept : Substitution → Prop) : Prop where
  rest : (streams.rest i).Kept kept
  found : ∀ θ ∈ streams.found i, kept θ

theorem Streams.Keeps.act (keeps : streams.Keeps i kept) (check : Bool) (turn : Turn ι) :
    (streams.act check turn).Keeps i kept := by
  cases turn with
  | change edit => exact ⟨keeps.rest, keeps.found⟩
  | resume j limit =>
    by_cases own : j = i
    · subst own
      have own := kept_of_take streams.base keeps.rest limit
      cases taken : streams.base.take limit (streams.rest j) with
      | mk progress after =>
      rw [taken] at own
      obtain ⟨answers, left⟩ := own
      obtain ⟨rest, found, -⟩ := Streams.resume_self taken
      refine ⟨?_, ?_⟩
      · rw [Streams.act, rest]
        exact left
      · rw [Streams.act, found]
        exact List.forall_mem_append.mpr ⟨keeps.found, answers⟩
    · obtain ⟨rest, found, -⟩ := streams.resume_of_ne own limit
      refine ⟨?_, ?_⟩
      · rw [Streams.act, rest]
        exact keeps.rest
      · rw [Streams.act, found]
        exact keeps.found

/-- Whatever other searches do and however the base is changed. -/
theorem Streams.Keeps.run (keeps : streams.Keeps i kept) (check : Bool)
    (schedule : List (Turn ι)) : (streams.run check schedule).Keeps i kept := by
  induction schedule generalizing streams with
  | nil => exact keeps
  | cons turn schedule ih => exact ih (keeps.act check turn)

end Sharing

end BeliefBase

namespace Substitution

/-- Later bindings keep all those of `θ` and make no cycle, and a term with its variables replaced
under `θ` stands for the same under them as the term itself. -/
structure Furthers (later θ : Substitution) : Prop where
  keeps : later.Extends θ
  acyclic : later.Acyclic
  settles : ∀ term, later.apply (θ.apply term) = later.apply term

variable {θ middle later : Substitution} {s t : Term}

theorem Acyclic.furthers (acyclic : θ.Acyclic) (last : later.Acyclic) (wider : later.Extends θ) :
    later.Furthers θ :=
  ⟨wider, last, last.apply_earlier wider acyclic⟩

/-- A unifier found with the occurs check furthers what the bindings before it further. -/
theorem Furthers.unify? (acyclic : θ.Acyclic) (furthers : middle.Furthers θ)
    (found : middle.unify? true s t = some later) : later.Furthers θ := by
  have added := (furthers.acyclic.unifies s t).extends later found
  exact acyclic.furthers (furthers.acyclic.of_unify? found) (furthers.keeps.trans added)

end Substitution

namespace BeliefBase

/-- With the occurs check every answer furthers the bindings that its question starts from: when all
answers are asked for at once, and when they are asked for bit by bit while the base is changed and
other searches of it go on. -/
theorem answers_further (base : BeliefBase) {limits : Limits} (checked : limits.occursCheck = true)
    (formula : Formula) {θ : Substitution} (acyclic : θ.Acyclic) :
    (∀ later ∈ (base.all (Search.solve limits formula θ)).1, later.Furthers θ) ∧
      ∀ {ι : Type} [DecidableEq ι] (streams : Streams ι) (i : ι),
        streams.rest i = Search.solve limits formula θ → streams.found i = [] →
          ∀ (check : Bool) (schedule : List (Turn ι)),
            ∀ later ∈ (streams.run check schedule).found i, later.Furthers θ := by
  have kept : (Search.solve limits formula θ).Kept (·.Furthers θ) := by
    refine Search.solve_kept (fun middle s t later furthers found => ?_) formula
      (acyclic.furthers acyclic (.refl θ))
    rw [checked] at found
    exact furthers.unify? acyclic found
  refine ⟨kept_of_all kept, fun streams i begins none check schedule => ?_⟩
  have started : streams.Keeps i (·.Furthers θ) :=
    ⟨begins ▸ kept, fun later member => absurd (none ▸ member) List.not_mem_nil⟩
  exact (started.run check schedule).found

/-- With `Y` bound to `g(Z)`, the search for `p(A)` by the rule `p(f(X)) :- q(X).` binds `A`, first to
`f(1)` and then to `f(2)`, in turns between which another search uses the rule and a fact is added. -/
theorem answers_further_twice :
    let θ := Substitution.empty.insert ⟨"Y", []⟩ (.compound "g" [.var ⟨"Z", []⟩])
    let found := ((Streams.opened wrapping fun _ : Bool =>
      Search.solve ⟨1, 0, true⟩ wrapped θ).run true [.resume false 1,
        .change (.assert (.compound "q" [.number (.int 2)])), .resume true 2]).found true
    θ.Acyclic ∧
      found.map (Substitution.texts [⟨"A", []⟩, ⟨"Y", []⟩]) =
        [[("A", "f(1)"), ("Y", "g(Z)")], [("A", "f(2)"), ("Y", "g(Z)")]] ∧
      ∀ later ∈ found, later.Furthers θ := by
  intro θ found
  have acyclic : θ.Acyclic := acyclic_single _ _ (by decide)
  refine ⟨acyclic, by decide +kernel, ?_⟩
  exact @(answers_further wrapping rfl wrapped acyclic).2 Bool _ _ true rfl rfl true _

end BeliefBase

end AgentSpeak
