import AgentSpeak.Beliefs.Solver
import AgentSpeak.Proofs.Beliefs.Filing

/-!
Properties that all answers of a search have. A search sees a base only through the facts and rules
that it reads, so what is required of it speaks of these alone and holds for every base that has no
others.
-/

namespace AgentSpeak

namespace Search

variable {fact : Term → Prop} {rule : Rule → Prop} {answer earlier : Substitution → Prop}
  {search : Search} {literal : Term} {θ : Substitution} {occursCheck : Bool}

/-- All answers have a property, whichever facts and rules of two kinds are read. -/
def Within (fact : Term → Prop) (rule : Rule → Prop) (answer : Substitution → Prop) :
    Search → Prop
  | .done => True
  | .failed _ => True
  | .answer θ rest => answer θ ∧ Within fact rule answer (rest ())
  | .facts _ next => ∀ items, (∀ item ∈ items, fact item) → Within fact rule answer (next items)
  | .rules _ next => ∀ items, (∀ item ∈ items, rule item) → Within fact rule answer (next items)
  | .fresh next => ∀ n, Within fact rule answer (next n)

theorem within_single (own : answer θ) : Within fact rule answer (single θ) :=
  ⟨own, trivial⟩

theorem Within.append {second : Unit → Search} (first : Within fact rule answer search)
    (others : Within fact rule answer (second ())) :
    Within fact rule answer (search.append second) := by
  induction search with
  | done => exact others
  | failed fault => trivial
  | answer θ rest ih => exact ⟨first.1, ih () first.2⟩
  | facts key next ih => exact fun items known => ih items (first items known)
  | rules key next ih => exact fun items known => ih items (first items known)
  | fresh next ih => exact fun n => ih n (first n)

theorem Within.bind {second : Substitution → Search} (first : Within fact rule earlier search)
    (each : ∀ θ, earlier θ → Within fact rule answer (second θ)) :
    Within fact rule answer (search.bind second) := by
  induction search with
  | done => trivial
  | failed fault => trivial
  | answer θ rest ih => exact (each θ first.1).append (ih () first.2)
  | facts key next ih => exact fun items known => ih items (first items known)
  | rules key next ih => exact fun items known => ih items (first items known)
  | fresh next ih => exact fun n => ih n (first n)

theorem Within.refute (within : Within fact rule answer search) (own : answer θ) :
    Within fact rule answer (search.refute θ) := by
  induction search with
  | done => exact within_single own
  | failed fault => trivial
  | answer θ rest ih => trivial
  | facts key next ih => exact fun items known => ih items (within items known)
  | rules key next ih => exact fun items known => ih items (within items known)
  | fresh next ih => exact fun n => ih n (within n)

theorem Within.mono (search : Search) (within : Within fact rule earlier search)
    (weaker : ∀ θ, earlier θ → answer θ) : Within fact rule answer search := by
  induction search with
  | done => trivial
  | failed fault => trivial
  | answer θ rest ih => exact ⟨weaker θ within.1, ih () within.2⟩
  | facts key next ih => exact fun items known => ih items (within items known)
  | rules key next ih => exact fun items known => ih items (within items known)
  | fresh next ih => exact fun n => ih n (within n)

theorem within_ofResult {result : Except Fault (Option Substitution)}
    (own : ∀ θ, result = .ok (some θ) → answer θ) :
    Within fact rule answer (ofResult result) := by
  unfold ofResult
  split
  next θ => exact within_single (own θ rfl)
  next => trivial
  next => trivial

theorem within_matching {facts : List Term}
    (each : ∀ item ∈ facts, ∀ θ', θ.unify? occursCheck literal item = some θ' → answer θ') :
    Within fact rule answer (matching occursCheck literal θ facts) := by
  induction facts with
  | nil => trivial
  | cons item rest ih =>
    have later := ih fun other member => each other (List.mem_cons_of_mem _ member)
    unfold matching
    split
    next extended unified => exact ⟨each item List.mem_cons_self extended unified, later⟩
    next => exact later

theorem within_applying {prove : Formula → Substitution → Search} {rules : List Rule}
    (each : ∀ item ∈ rules, ∀ (n : Nat) θ',
      θ.unify? occursCheck literal (item.mark [toString n]).head = some θ' →
        Within fact rule answer (prove (item.mark [toString n]).body θ')) :
    Within fact rule answer (applying occursCheck prove literal θ rules) := by
  induction rules with
  | nil => trivial
  | cons item rest ih =>
    have later := ih fun other member => each other (List.mem_cons_of_mem _ member)
    unfold applying
    intro n
    simp only
    split
    next extended unified => exact (each item List.mem_cons_self n extended unified).append later
    next => exact later

/-- The answers to a literal are what is true of itself, of the facts and of the rules. -/
theorem within_asking {prove : Formula → Substitution → Search}
    (self : θ.walk literal = Term.truth → answer θ)
    (byFact : ∀ item, fact item → ∀ θ',
      θ.unify? occursCheck (θ.walk literal) item = some θ' → answer θ')
    (byRule : ∀ item, rule item → ∀ (n : Nat) θ',
      θ.unify? occursCheck (θ.walk literal) (item.mark [toString n]).head = some θ' →
        Within fact rule answer (prove (item.mark [toString n]).body θ')) :
    Within fact rule answer (asking occursCheck prove literal θ) := by
  unfold asking
  split
  next same => exact within_single (self same)
  next => trivial
  next =>
    split
    next => trivial
    next key filed =>
      intro facts known
      refine (within_matching fun item member => byFact item (known item member)).append ?_
      intro rules known
      exact within_applying fun item member => byRule item (known item member)

end Search

namespace BeliefBase

open Search

variable {fact : Term → Prop} {rule : Rule → Prop} {answer : Substitution → Prop}
  {base : BeliefBase} {search : Search}

theorem answers_of_within (facts : ∀ item ∈ base.facts, fact item)
    (rules : ∀ item ∈ base.rules, rule item) (within : Within fact rule answer search) :
    ∀ θ ∈ (base.all search).1, answer θ := by
  induction search generalizing base with
  | done => simp [all]
  | failed fault => simp [all]
  | answer θ rest ih =>
    intro θ' member
    rcases List.mem_cons.mp member with here | later
    · exact here ▸ within.1
    · exact ih () facts rules within.2 θ' later
  | facts key next ih =>
    exact ih _ facts rules (within _ fun item member =>
      facts item (Groups.mem_toList_of_mem_get member))
  | rules key next ih =>
    exact ih _ facts rules (within _ fun item member =>
      rules item (Groups.mem_toList_of_mem_get member))
  | fresh next ih => exact ih _ facts rules (within _)

/-- An answer has what all answers have, and so does what is left of the search. -/
theorem found_of_within (facts : ∀ item ∈ base.facts, fact item)
    (rules : ∀ item ∈ base.rules, rule item) (within : Within fact rule answer search)
    {θ : Substitution} {rest : Search} (found : (base.next search).1 = .found θ rest) :
    answer θ ∧ Within fact rule answer rest := by
  induction search generalizing base with
  | done => cases found
  | failed fault => cases found
  | answer θ rest ih =>
    cases found
    exact within
  | facts key next ih =>
    exact ih _ facts rules (within _ fun item member =>
      facts item (Groups.mem_toList_of_mem_get member)) found
  | rules key next ih =>
    exact ih _ facts rules (within _ fun item member =>
      rules item (Groups.mem_toList_of_mem_get member)) found
  | fresh next ih =>
    exact @ih (base.renamings + 1) { base with renamings := base.renamings + 1 }
      facts rules (within _) found

end BeliefBase

end AgentSpeak
