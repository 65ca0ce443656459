import AgentSpeak.Beliefs.Solver

/-!
Searches that show which rules they apply. A course goes like the search for the same question, and
where the search asks for a number to rename a rule with, the course tells the rule, the literal that
it is to be applied to and the bindings at that point. Without what it tells it is the search.
-/

namespace AgentSpeak

/-- A rule renamed apart with a number, to be applied to a literal under bindings. -/
structure Application where
  goal : Term
  bindings : Substitution
  rule : Rule
  number : Nat

namespace Application

/-- The rule as it is applied. -/
def renamed (application : Application) : Rule :=
  application.rule.mark [toString application.number]

end Application

/-- A search that has come to a stop, which may be the application of a rule. -/
inductive Course where
  | done
  | failed (fault : Fault)
  | answer (θ : Substitution) (rest : Unit → Course)
  | facts (key : Indicator) (next : List Term → Course)
  | rules (key : Indicator) (next : List Rule → Course)
  /-- A rule is to be applied to a literal under bindings, with a number that no renaming has used. -/
  | apply (goal : Term) (θ : Substitution) (rule : Rule) (next : Nat → Course)

namespace Course

/-- The search that goes this course. -/
def search : Course → Search
  | .done => .done
  | .failed fault => .failed fault
  | .answer θ rest => .answer θ fun _ => (rest ()).search
  | .facts key next => .facts key fun facts => (next facts).search
  | .rules key next => .rules key fun rules => (next rules).search
  | .apply _ _ _ next => .fresh fun n => (next n).search

def single (θ : Substitution) : Course :=
  .answer θ fun _ => .done

def append : Course → (Unit → Course) → Course
  | .done, second => second ()
  | .failed fault, _ => .failed fault
  | .answer θ rest, second => .answer θ fun _ => (rest ()).append second
  | .facts key next, second => .facts key fun facts => (next facts).append second
  | .rules key next, second => .rules key fun rules => (next rules).append second
  | .apply goal θ rule next, second => .apply goal θ rule fun n => (next n).append second

def bind : Course → (Substitution → Course) → Course
  | .done, _ => .done
  | .failed fault, _ => .failed fault
  | .answer θ rest, second => (second θ).append fun _ => (rest ()).bind second
  | .facts key next, second => .facts key fun facts => (next facts).bind second
  | .rules key next, second => .rules key fun rules => (next rules).bind second
  | .apply goal θ rule next, second => .apply goal θ rule fun n => (next n).bind second

def refute (θ : Substitution) : Course → Course
  | .done => single θ
  | .failed fault => .failed fault
  | .answer _ _ => .done
  | .facts key next => .facts key fun facts => (next facts).refute θ
  | .rules key next => .rules key fun rules => (next rules).refute θ
  | .apply goal θ' rule next => .apply goal θ' rule fun n => (next n).refute θ

def ofResult (result : Except Fault (Option Substitution)) : Course :=
  match result with
  | .ok (some θ) => single θ
  | .ok none => .done
  | .error fault => .failed fault

def matching (occursCheck : Bool) (literal : Term) (θ : Substitution) : List Term → Course
  | [] => .done
  | fact :: rest =>
      match θ.unify? occursCheck literal fact with
      | some extended => .answer extended fun _ => matching occursCheck literal θ rest
      | none => matching occursCheck literal θ rest

def applying (occursCheck : Bool) (prove : Formula → Substitution → Course) (literal : Term)
    (θ : Substitution) : List Rule → Course
  | [] => .done
  | rule :: rest =>
      .apply literal θ rule fun n =>
        let renamed := rule.mark [toString n]
        match θ.unify? occursCheck literal renamed.head with
        | some extended =>
            (prove renamed.body extended).append fun _ =>
              applying occursCheck prove literal θ rest
        | none => applying occursCheck prove literal θ rest

def asking (occursCheck : Bool) (prove : Formula → Substitution → Course) (literal : Term)
    (θ : Substitution) : Course :=
  match θ.walk literal with
  | .atom "true" => single θ
  | .atom "false" => .done
  | walked =>
      match walked.indicator? with
      | none => .failed (.notQueryable walked)
      | some key =>
          .facts key fun facts =>
            (matching occursCheck walked θ facts).append fun _ =>
              .rules key (applying occursCheck prove walked θ)

def relating (occursCheck : Bool) (relation : Relation) (left right : Term) (θ : Substitution) :
    Course :=
  ofResult <| match relation with
    | .unify => do return θ.unify? occursCheck (← θ.resolve left) (← θ.resolve right)
    | relation => do return if ← θ.compare relation left right then some θ else none

def solvingWith (occursCheck : Bool) (ask : Term → Substitution → Course) :
    Formula → Substitution → Course
  | .literal term, θ => ask term θ
  | .negation formula, θ => (solvingWith occursCheck ask formula θ).refute θ
  | .conjunction left right, θ =>
      (solvingWith occursCheck ask left θ).bind (solvingWith occursCheck ask right)
  | .disjunction left right, θ =>
      (solvingWith occursCheck ask left θ).append fun _ => solvingWith occursCheck ask right θ
  | .comparison relation left right, θ => relating occursCheck relation left right θ

def queryWithin (limits : Limits) : Nat → Term → Substitution → Course
  | 0, literal, θ => .failed (.tooDeep limits.maxDepth (θ.apply literal))
  | levels + 1, literal, θ =>
      asking limits.occursCheck (solvingWith limits.occursCheck (queryWithin limits levels))
        literal θ

def query (limits : Limits) (literal : Term) (θ : Substitution) : Course :=
  queryWithin limits (limits.maxDepth + 1).toNat literal θ

def solve (limits : Limits) (formula : Formula) (θ : Substitution) : Course :=
  solvingWith limits.occursCheck (query limits) formula θ

variable {first : Course} {second : Unit → Course} {occursCheck : Bool}

theorem search_append : (first.append second).search =
    first.search.append fun _ => (second ()).search := by
  induction first with
  | done => rfl
  | failed fault => rfl
  | answer θ rest ih => exact congrArg (Search.answer θ) (funext fun _ => ih ())
  | facts key next ih => exact congrArg (Search.facts key) (funext ih)
  | rules key next ih => exact congrArg (Search.rules key) (funext ih)
  | apply goal θ rule next ih => exact congrArg Search.fresh (funext ih)

theorem search_bind {next : Substitution → Course} : (first.bind next).search =
    first.search.bind fun θ => (next θ).search := by
  induction first with
  | done => rfl
  | failed fault => rfl
  | answer θ rest ih =>
    rw [bind, search_append, search, Search.bind, ih]
  | facts key next ih => exact congrArg (Search.facts key) (funext ih)
  | rules key next ih => exact congrArg (Search.rules key) (funext ih)
  | apply goal θ rule next ih => exact congrArg Search.fresh (funext ih)

theorem search_refute (θ : Substitution) : (first.refute θ).search = first.search.refute θ := by
  induction first with
  | done => rfl
  | failed fault => rfl
  | answer θ rest ih => rfl
  | facts key next ih => exact congrArg (Search.facts key) (funext ih)
  | rules key next ih => exact congrArg (Search.rules key) (funext ih)
  | apply goal θ rule next ih => exact congrArg Search.fresh (funext ih)

theorem search_ofResult (result : Except Fault (Option Substitution)) :
    (ofResult result).search = Search.ofResult result := by
  match result with
  | .ok (some θ) => rfl
  | .ok none => rfl
  | .error fault => rfl

theorem search_matching (literal : Term) (θ : Substitution) (facts : List Term) :
    (matching occursCheck literal θ facts).search =
      Search.matching occursCheck literal θ facts := by
  induction facts with
  | nil => rfl
  | cons fact rest ih =>
    rw [matching, Search.matching]
    cases θ.unify? occursCheck literal fact with
    | none => exact ih
    | some extended => exact congrArg (Search.answer extended) (funext fun _ => ih)

section Proving

variable {prove : Formula → Substitution → Course} {proving : Formula → Substitution → Search}

theorem search_applying (proves : ∀ formula θ, (prove formula θ).search = proving formula θ)
    (literal : Term) (θ : Substitution) (rules : List Rule) :
    (applying occursCheck prove literal θ rules).search =
      Search.applying occursCheck proving literal θ rules := by
  induction rules with
  | nil => rfl
  | cons rule rest ih =>
    refine congrArg Search.fresh (funext fun n => ?_)
    dsimp only
    cases θ.unify? occursCheck literal (rule.mark [toString n]).head with
    | none => exact ih
    | some extended =>
      simp only
      rw [search_append, proves, ih]

theorem search_asking (proves : ∀ formula θ, (prove formula θ).search = proving formula θ)
    (literal : Term) (θ : Substitution) : (asking occursCheck prove literal θ).search =
      Search.asking occursCheck proving literal θ := by
  have filed : ∀ key walked, search (.facts key fun facts =>
      (matching occursCheck walked θ facts).append fun _ =>
        .rules key (applying occursCheck prove walked θ)) =
      .facts key fun facts => (Search.matching occursCheck walked θ facts).append fun _ =>
        .rules key (Search.applying occursCheck proving walked θ) := by
    intro key walked
    refine congrArg (Search.facts key) (funext fun facts => ?_)
    rw [search_append, search_matching]
    refine congrArg _ (funext fun _ => congrArg (Search.rules key) (funext fun rules => ?_))
    exact search_applying proves walked θ rules
  unfold asking Search.asking
  generalize θ.walk literal = walked
  cases walked with
  | atom name =>
    by_cases isTrue : name = "true"
    · cases isTrue
      rfl
    by_cases isFalse : name = "false"
    · cases isFalse
      rfl
    · simpa [Term.indicator?, isTrue, isFalse] using filed ⟨name, 0⟩ (.atom name)
  | compound functor arguments => exact filed ⟨functor, arguments.length⟩ (.compound functor arguments)
  | number value | string value | var v => rfl

theorem search_solvingWith {ask : Term → Substitution → Course}
    {asked : Term → Substitution → Search} (asks : ∀ literal θ, (ask literal θ).search = asked literal θ)
    (formula : Formula) (θ : Substitution) : (solvingWith occursCheck ask formula θ).search =
      Search.solvingWith occursCheck asked formula θ := by
  induction formula generalizing θ with
  | literal term => exact asks term θ
  | negation formula ih => rw [solvingWith, search_refute, ih, Search.solvingWith]
  | conjunction left right leftIh rightIh =>
    rw [solvingWith, search_bind, leftIh, Search.solvingWith]
    exact congrArg _ (funext rightIh)
  | disjunction left right leftIh rightIh =>
    rw [solvingWith, search_append, leftIh, Search.solvingWith, rightIh]
  | comparison relation left right => exact search_ofResult _

end Proving

theorem search_queryWithin (limits : Limits) (levels : Nat) (literal : Term) (θ : Substitution) :
    (queryWithin limits levels literal θ).search =
      Search.queryWithin limits levels literal θ := by
  induction levels generalizing literal θ with
  | zero => rfl
  | succ levels ih => exact search_asking (search_solvingWith ih) literal θ

/-- A literal is proved in the same course as the program takes. -/
@[simp] theorem search_query (limits : Limits) (literal : Term) (θ : Substitution) :
    (query limits literal θ).search = Search.query limits literal θ :=
  search_queryWithin limits _ literal θ

/-- So is a formula. -/
@[simp] theorem search_solve (limits : Limits) (formula : Formula) (θ : Substitution) :
    (solve limits formula θ).search = Search.solve limits formula θ :=
  search_solvingWith (search_query limits) formula θ

end Course

/-- How a course goes on to its next answer. -/
inductive Course.Step where
  | ended
  | failed (fault : Fault)
  | found (θ : Substitution) (rest : Course)

/-- The step of the search. -/
def Course.Step.search : Course.Step → Search.Step
  | .ended => .ended
  | .failed fault => .failed fault
  | .found θ rest => .found θ rest.search

namespace BeliefBase

/-- A course resumed up to its next answer, with the rules that it applies on the way. -/
def follow (base : BeliefBase) : Course → Course.Step × BeliefBase × List Application
  | .done => (.ended, base, [])
  | .failed fault => (.failed fault, base, [])
  | .answer θ rest => (.found θ (rest ()), base, [])
  | .facts key next => base.follow (next (base.groups.get key))
  | .rules key next => base.follow (next (base.ruleGroups.get key))
  | .apply goal θ rule next =>
      let number := base.renamings + 1
      let (step, after, applied) := follow { base with renamings := number } (next number)
      (step, after, ⟨goal, θ, rule, number⟩ :: applied)

/-- A course resumed for all answers, with the rules that it applies. -/
def followAll (base : BeliefBase) :
    Course → List Substitution × Option Fault × BeliefBase × List Application
  | .done => ([], none, base, [])
  | .failed fault => ([], some fault, base, [])
  | .answer θ rest =>
      let (answers, fault, after, applied) := base.followAll (rest ())
      (θ :: answers, fault, after, applied)
  | .facts key next => base.followAll (next (base.groups.get key))
  | .rules key next => base.followAll (next (base.ruleGroups.get key))
  | .apply goal θ rule next =>
      let number := base.renamings + 1
      let (answers, fault, after, applied) :=
        followAll { base with renamings := number } (next number)
      (answers, fault, after, ⟨goal, θ, rule, number⟩ :: applied)

/-- The first answer of a course, if it has one, with the rules that it applies. -/
def firstOf (base : BeliefBase) (course : Course) :
    Except Fault (Option Substitution) × BeliefBase × List Application :=
  match base.follow course with
  | (.ended, rest) => (.ok none, rest)
  | (.failed fault, rest) => (.error fault, rest)
  | (.found θ _, rest) => (.ok (some θ), rest)

/-- All answers of a course, unless it fails, with the rules that it applies. -/
def answersOf (base : BeliefBase) (course : Course) :
    Except Fault (List Substitution) × BeliefBase × List Application :=
  match base.followAll course with
  | (found, none, rest) => (.ok found, rest)
  | (_, some fault, rest) => (.error fault, rest)

theorem next_search (base : BeliefBase) (course : Course) :
    base.next course.search = ((base.follow course).1.search, (base.follow course).2.1) := by
  induction course generalizing base with
  | done => rfl
  | failed fault => rfl
  | answer θ rest ih => rfl
  | facts key next ih => exact ih _ base
  | rules key next ih => exact ih _ base
  | apply goal θ rule next ih => exact ih _ _

theorem all_search (base : BeliefBase) (course : Course) :
    base.all course.search = ((base.followAll course).1, (base.followAll course).2.1,
      (base.followAll course).2.2.1) := by
  induction course generalizing base with
  | done => rfl
  | failed fault => rfl
  | answer θ rest ih => rw [Course.search, all, ih, followAll]
  | facts key next ih => exact ih _ base
  | rules key next ih => exact ih _ base
  | apply goal θ rule next ih => exact ih _ _

theorem first_search (base : BeliefBase) (course : Course) :
    base.first course.search = ((base.firstOf course).1, (base.firstOf course).2.1) := by
  rw [first, next_search, firstOf]
  rcases base.follow course with ⟨ended | failed | found, rest⟩ <;> rfl

theorem answers_search (base : BeliefBase) (course : Course) :
    base.answers course.search = ((base.answersOf course).1, (base.answersOf course).2.1) := by
  rw [answers, all_search, answersOf]
  rcases base.followAll course with ⟨found, none | fault, rest⟩ <;> rfl

end BeliefBase

end AgentSpeak
