import AgentSpeak.Beliefs.Solver
import AgentSpeak.Proofs.Beliefs.Answers
import AgentSpeak.Proofs.Formula.Legible
import AgentSpeak.Proofs.Substitution.Renaming

/-!
Searches from questions with other names. Where facts are ground and the renamings of rules keep
their names, the same question with other names has the same answers with other names, and fails
where the first one fails.
-/

namespace AgentSpeak

variable {π : Variable → Variable}

/-- Every renaming of a rule has allowed variables only. -/
def Rule.Renames (allowed : Variable → Prop) (rule : Rule) : Prop :=
  ∀ v ∈ rule.head.vars ++ rule.body.vars, ∀ n : Nat, allowed (v.mark [toString n])

namespace Search

/-- The second search is the first one with other names, whichever ground facts and whichever rules
are read whose renamings keep their names. -/
inductive Renamed (π : Variable → Variable) : Search → Search → Prop where
  | done : Renamed π .done .done
  | failed (fault : Fault) : Renamed π (.failed fault) (.failed (fault.rename π))
  | answer (θ : Substitution) {rest rest' : Unit → Search}
      (later : Renamed π (rest ()) (rest' ())) :
      Renamed π (.answer θ rest) (.answer (θ.rename π) rest')
  | facts (key : Indicator) {next next' : List Term → Search}
      (each : ∀ facts, (∀ fact ∈ facts, fact.isGround = true) →
        Renamed π (next facts) (next' facts)) : Renamed π (.facts key next) (.facts key next')
  | rules (key : Indicator) {next next' : List Rule → Search}
      (each : ∀ rules, (∀ rule ∈ rules, rule.Renames fun v => π v = v) →
        Renamed π (next rules) (next' rules)) : Renamed π (.rules key next) (.rules key next')
  | fresh {next next' : Nat → Search} (each : ∀ n, Renamed π (next n) (next' n)) :
      Renamed π (.fresh next) (.fresh next')

variable {first second : Search} {θ : Substitution}

theorem renamed_single (θ : Substitution) : Renamed π (single θ) (single (θ.rename π)) :=
  .answer θ .done

theorem Renamed.append {more more' : Unit → Search} (same : Renamed π first second)
    (others : Renamed π (more ()) (more' ())) :
    Renamed π (first.append more) (second.append more') := by
  induction same with
  | done => exact others
  | failed fault => exact .failed fault
  | answer θ later ih => exact .answer θ ih
  | facts key each ih => exact .facts key ih
  | rules key each ih => exact .rules key ih
  | fresh each ih => exact .fresh ih

theorem Renamed.bind {next next' : Substitution → Search} (same : Renamed π first second)
    (each : ∀ θ, Renamed π (next θ) (next' (θ.rename π))) :
    Renamed π (first.bind next) (second.bind next') := by
  induction same with
  | done => exact .done
  | failed fault => exact .failed fault
  | answer θ later ih => exact (each θ).append ih
  | facts key each ih => exact .facts key ih
  | rules key each ih => exact .rules key ih
  | fresh each ih => exact .fresh ih

theorem Renamed.refute (same : Renamed π first second) (θ : Substitution) :
    Renamed π (first.refute θ) (second.refute (θ.rename π)) := by
  induction same with
  | done => exact renamed_single θ
  | failed fault => exact .failed fault
  | answer => exact .done
  | facts key each ih => exact .facts key ih
  | rules key each ih => exact .rules key ih
  | fresh each ih => exact .fresh ih

theorem renamed_ofResult (result : Except Fault (Option Substitution)) :
    Renamed π (ofResult result)
      (ofResult (renamed π (Option.map (Substitution.rename π)) result)) := by
  match result with
  | .ok (some θ) => exact renamed_single θ
  | .ok none => exact .done
  | .error fault => exact .failed fault

section Solving

variable (one : Function.Injective π) (occursCheck : Bool)

include one

theorem renamed_matching (literal : Term) (θ : Substitution) {facts : List Term}
    (ground : ∀ fact ∈ facts, fact.isGround = true) :
    Renamed π (matching occursCheck literal θ facts)
      (matching occursCheck (literal.rename π) (θ.rename π) facts) := by
  induction facts with
  | nil => exact .done
  | cons fact rest ih =>
    have later := ih fun other member => ground other (by simp [member])
    have fixed : fact.rename π = fact := Term.bind_of_isGround (ground fact (by simp)) _
    have unified := Substitution.unify?_rename one occursCheck literal fact θ
    rw [fixed] at unified
    rw [matching, matching, unified]
    cases θ.unify? occursCheck literal fact with
    | none => exact later
    | some extended => exact .answer extended later

theorem renamed_applying {prove : Formula → Substitution → Search}
    (proves : ∀ formula θ, Renamed π (prove formula θ) (prove (formula.rename π) (θ.rename π)))
    (literal : Term) (θ : Substitution) {rules : List Rule}
    (fixed : ∀ rule ∈ rules, rule.Renames fun v => π v = v) :
    Renamed π (applying occursCheck prove literal θ rules)
      (applying occursCheck prove (literal.rename π) (θ.rename π) rules) := by
  induction rules with
  | nil => exact .done
  | cons rule rest ih =>
    have later := ih fun other member => fixed other (by simp [member])
    have own := fixed rule (by simp)
    refine .fresh fun n => ?_
    have head : (rule.mark [toString n]).head.rename π = (rule.mark [toString n]).head :=
      Term.rename_self (Term.over_mark fun v inside => own v (List.mem_append_left _ inside) n)
    have body : (rule.mark [toString n]).body.rename π = (rule.mark [toString n]).body :=
      Formula.rename_self
        (Formula.over_mark fun v inside => own v (List.mem_append_right _ inside) n)
    have unified :=
      Substitution.unify?_rename one occursCheck literal (rule.mark [toString n]).head θ
    rw [head] at unified
    simp only [unified]
    cases θ.unify? occursCheck literal (rule.mark [toString n]).head with
    | none => exact later
    | some extended =>
      have proved := proves (rule.mark [toString n]).body extended
      rw [body] at proved
      exact proved.append later

theorem renamed_asking {prove : Formula → Substitution → Search}
    (proves : ∀ formula θ, Renamed π (prove formula θ) (prove (formula.rename π) (θ.rename π)))
    (literal : Term) (θ : Substitution) :
    Renamed π (asking occursCheck prove literal θ)
      (asking occursCheck prove (literal.rename π) (θ.rename π)) := by
  have filed : ∀ key walked, Renamed π
      (.facts key fun facts => (matching occursCheck walked θ facts).append fun _ =>
        .rules key (applying occursCheck prove walked θ))
      (.facts key fun facts => (matching occursCheck (walked.rename π) (θ.rename π) facts).append
        fun _ => .rules key (applying occursCheck prove (walked.rename π) (θ.rename π))) :=
    fun key walked => .facts key fun facts ground =>
      (renamed_matching one occursCheck walked θ ground).append
        (.rules key fun rules fixed => renamed_applying one occursCheck proves walked θ fixed)
  unfold asking
  rw [Substitution.walk_rename one]
  generalize θ.walk literal = walked
  cases walked with
  | atom name =>
    rw [Term.rename_atom]
    split
    · exact renamed_single θ
    · exact .done
    · exact Term.rename_atom π name ▸ filed ⟨name, 0⟩ (.atom name)
  | compound functor arguments =>
    have known := filed ⟨functor, arguments.length⟩ (.compound functor arguments)
    rw [Term.rename_compound] at known ⊢
    simpa only [Term.indicator?, List.length_map] using known
  | number value => exact .failed (.notQueryable (.number value))
  | string value => exact .failed (.notQueryable (.string value))
  | var v => exact .failed (.notQueryable (.var v))

theorem renamed_relating (relation : Relation) (left right : Term) (θ : Substitution) :
    Renamed π (relating occursCheck relation left right θ)
      (relating occursCheck relation (left.rename π) (right.rename π) (θ.rename π)) := by
  have same : ∀ result result' : Except Fault (Option Substitution),
      result' = renamed π (Option.map (Substitution.rename π)) result →
        Renamed π (ofResult result) (ofResult result') := by
    rintro result _ rfl
    exact renamed_ofResult result
  refine same _ _ ?_
  have unified : (do
      let s ← (θ.rename π).resolve (left.rename π)
      let t ← (θ.rename π).resolve (right.rename π)
      return (θ.rename π).unify? occursCheck s t : Except Fault (Option Substitution)) =
      renamed π (Option.map (Substitution.rename π)) (do
        let s ← θ.resolve left
        let t ← θ.resolve right
        return θ.unify? occursCheck s t) := by
    rw [Substitution.resolve_rename one, Substitution.resolve_rename one]
    refine renamed_bind (fun s => ?_) _
    refine renamed_bind (fun t => ?_) _
    exact congrArg Except.ok (Substitution.unify?_rename one occursCheck s t θ)
  have compared : ∀ relation, (do
      return if ← (θ.rename π).compare relation (left.rename π) (right.rename π) then
        some (θ.rename π) else none : Except Fault (Option Substitution)) =
      renamed π (Option.map (Substitution.rename π)) (do
        return if ← θ.compare relation left right then some θ else none) := by
    intro relation
    rw [Substitution.compare_rename one]
    refine renamed_bind (fun holds => ?_) _
    cases holds <;> rfl
  cases relation with
  | unify => exact unified
  | _ => exact compared _

/-- Where literals with other names have the same answers, so do formulas. -/
theorem renamed_solvingWith {ask : Term → Substitution → Search}
    (asks : ∀ term θ, Renamed π (ask term θ) (ask (term.rename π) (θ.rename π)))
    (formula : Formula) (θ : Substitution) :
    Renamed π (solvingWith occursCheck ask formula θ)
      (solvingWith occursCheck ask (formula.rename π) (θ.rename π)) := by
  induction formula generalizing θ with
  | literal term => exact asks term θ
  | negation formula ih => exact (ih θ).refute θ
  | conjunction left right ih ih' => exact (ih θ).bind ih'
  | disjunction left right ih ih' => exact (ih θ).append (ih' θ)
  | comparison relation left right => exact renamed_relating one occursCheck relation left right θ

theorem renamed_queryWithin (limits : Limits) (levels : Nat) (literal : Term) (θ : Substitution) :
    Renamed π (queryWithin limits levels literal θ)
      (queryWithin limits levels (literal.rename π) (θ.rename π)) := by
  induction levels generalizing literal θ with
  | zero =>
    rw [queryWithin, queryWithin, Substitution.apply_rename one]
    exact .failed _
  | succ levels ih =>
    exact renamed_asking one limits.occursCheck
      (renamed_solvingWith one limits.occursCheck ih) literal θ

/-- The search for a formula with other names is the search for the formula with other names. -/
theorem renamed_solve (limits : Limits) (formula : Formula) (θ : Substitution) :
    Renamed π (solve limits formula θ) (solve limits (formula.rename π) (θ.rename π)) :=
  renamed_solvingWith one limits.occursCheck (renamed_queryWithin one limits _) formula θ

end Solving

end Search

namespace BeliefBase

/-- Reading one base, a search with other names has the same answers and the same fault with other
names, and leaves the same base. -/
theorem all_renamed {first second : Search} (same : Search.Renamed π first second)
    {base : BeliefBase} (ground : ∀ fact ∈ base.facts, fact.isGround = true)
    (fixed : ∀ rule ∈ base.rules, rule.Renames fun v => π v = v) :
    base.all second = ((base.all first).1.map (Substitution.rename π),
      (base.all first).2.1.map (Fault.rename π), (base.all first).2.2) := by
  induction same generalizing base with
  | done => rfl
  | failed fault => rfl
  | answer θ later ih =>
    rw [all, all, ih ground fixed]
    rfl
  | facts key each ih =>
    exact ih _ (fun fact member => ground fact (Groups.mem_toList_of_mem_get member)) ground fixed
  | rules key each ih =>
    exact ih _ (fun rule member => fixed rule (Groups.mem_toList_of_mem_get member)) ground fixed
  | fresh each ih => exact ih _ ground fixed

end BeliefBase

end AgentSpeak
