import AgentSpeak.Proofs.Agent.Keeping
import AgentSpeak.Proofs.Beliefs.Kept
import AgentSpeak.Proofs.Unification.Ground

/-!
Where cyclic bindings come from. With the occurs check on, questions, choices of plans and returns
bind without making a cycle, and so do bindings to ground terms, which are not checked. Collecting
answers is the one thing that binds to any term unchecked, and it can make a cycle.
-/

namespace AgentSpeak

open Substitution

namespace Substitution

variable {θ θ' : Substitution} {s t : Term}

theorem Acyclic.without (acyclic : θ.Acyclic) (fresh : List Variable) :
    (θ.without fresh).Acyclic := by
  intro v cycle
  refine acyclic v (cycle.lift id ?_)
  rintro one other ⟨term, found, member⟩
  rw [find?_without] at found
  split at found
  next => cases found
  next => exact ⟨term, found, member⟩

/-- With the occurs check on, taking out a fact binds without making a cycle. -/
theorem Acyclic.of_removing {base : BeliefBase} {pattern : Term} (acyclic : θ.Acyclic)
    (done : (base.removing true pattern θ).outcome = .ok (some θ')) : θ'.Acyclic := by
  obtain ⟨fact, -, unified⟩ := BeliefBase.removing_some done
  exact acyclic.of_unify? unified

end Substitution

namespace Statement

mutual

/-- A statement calls no built-in action of a name, also not inside. -/
def lacks (action : String) : Statement → Bool
  | .action .builtin name _ => name != action
  | .branch _ positive negative => lacksAll action positive && lacksAll action negative
  | .loop _ body => lacksAll action body
  | _ => true

/-- No statement of a list calls a built-in action of a name. -/
def lacksAll (action : String) : List Statement → Bool
  | [] => true
  | statement :: rest => lacks action statement && lacksAll action rest

end

theorem lacksAll_iff {action : String} {statements : List Statement} :
    lacksAll action statements = true ↔
      ∀ statement ∈ statements, statement.lacks action = true := by
  induction statements with
  | nil => simp [lacksAll]
  | cons statement rest ih => simp [lacksAll, ih]

end Statement

/-- A task collects no answers. -/
def Task.NeverCollects (task : Task) : Prop :=
  task.source.lacks "findall" = true

theorem Task.neverCollects_ofStatements {statements : List Statement}
    (lacks : Statement.lacksAll "findall" statements = true) :
    ∀ task ∈ Task.ofStatements statements, task.NeverCollects := by
  intro task member
  obtain ⟨statement, inside, rfl⟩ := List.mem_map.mp member
  exact Statement.lacksAll_iff.mp lacks statement inside

/-- The bindings of a frame are acyclic, and nothing left to do in it collects answers. -/
structure Frame.IsAcyclic (frame : Frame) : Prop where
  bindings : frame.bindings.Acyclic
  tasks : ∀ task ∈ frame.tasks, task.NeverCollects

namespace Agent

/-- The occurs check is on, no plan collects answers and the environment returns ground terms. -/
structure Checks (agent : Agent) : Prop where
  occursCheck : agent.limits.occursCheck = true
  plans : ∀ plan ∈ agent.plans, Statement.lacksAll "findall" plan.body = true
  replies : agent.actions.RepliesGround

theorem Checks.of_sameSetup {agent after : Agent} (checks : agent.Checks)
    (same : SameSetup agent after) : after.Checks :=
  ⟨same.limits ▸ checks.occursCheck, same.plans ▸ checks.plans, same.actions ▸ checks.replies⟩

variable {α β : Type} {agent : Agent} {computation : AgentM α} {property : α → Prop}
  {θ : Substitution}

/-- With the occurs check on, a computation leaves it on and has results with a property only. -/
def Guarantees (property : α → Prop) (computation : AgentM α) : Prop :=
  ∀ agent : Agent, agent.Checks → (leaves computation agent).Checks ∧
    ∀ value after, computation.run.run agent = (.ok value, after) → property value

theorem Keeps.of_run {relation : Agent → Agent → Prop} {outcome : Except Fault α} {after : Agent}
    (keeps : Keeps relation computation) (ran : computation.run.run agent = (outcome, after)) :
    relation agent after := by
  have kept := keeps agent
  rwa [leaves, ran] at kept

theorem Guarantees.of_run {outcome : Except Fault α} {after : Agent}
    (guarantees : Guarantees property computation) (checks : agent.Checks)
    (ran : computation.run.run agent = (outcome, after)) :
    after.Checks ∧ ∀ value, outcome = .ok value → property value := by
  obtain ⟨kept, own⟩ := guarantees agent checks
  rw [leaves, ran] at kept
  exact ⟨kept, fun value same => own value after (same ▸ ran)⟩

theorem guarantees_of_keeps (keeps : Keeps SameSetup computation) :
    Guarantees (fun _ => True) computation :=
  fun agent checks => ⟨checks.of_sameSetup (keeps agent), fun _ _ _ => trivial⟩

theorem guarantees_pure {value : α} (own : property value) : Guarantees property (pure value) :=
  fun _ checks => ⟨checks, fun _ _ ran => Except.ok.inj (congrArg Prod.fst ran) ▸ own⟩

theorem guarantees_throw (fault : Fault) : Guarantees property (throw fault : AgentM α) :=
  fun _ checks => ⟨checks, fun _ _ ran => by cases ran⟩

theorem Guarantees.bind {next : α → AgentM β} {other : β → Prop}
    (first : Guarantees property computation)
    (rest : ∀ value, property value → Guarantees other (next value)) :
    Guarantees other (computation >>= next) := by
  intro agent checks
  obtain ⟨kept, own⟩ := first agent checks
  unfold leaves at kept ⊢
  rw [run_bind]
  rcases outcome : computation.run.run agent with ⟨fault | value, after⟩
  · rw [outcome] at kept
    exact ⟨kept, fun _ _ ran => by cases ran⟩
  · rw [outcome] at kept
    exact rest value (own value after outcome) after kept

/-- What a part does that only reports, numbers or posts does not matter. -/
theorem Keeps.bind_guarantees {next : α → AgentM β} {other : β → Prop}
    (first : Keeps SameSetup computation) (rest : ∀ value, Guarantees other (next value)) :
    Guarantees other (computation >>= next) :=
  (guarantees_of_keeps first).bind fun value _ => rest value

theorem guarantees_get_bind {next : Agent → AgentM α}
    (rest : ∀ agent : Agent, agent.Checks → Guarantees property (next agent)) :
    Guarantees property (get >>= next) :=
  fun agent checks => rest agent checks agent checks

/-- The answers of a search of the beliefs are acyclic if the bindings are with which it began. -/
theorem guarantees_first {search : Search} (kept : search.Kept Acyclic) :
    Guarantees (fun found => ∀ answer, found = some answer → answer.Acyclic)
      (searching (·.first search)) := by
  intro agent checks
  refine ⟨checks.of_sameSetup (bookkeeping_sameSetup.keeps_first search agent), ?_⟩
  rintro _ after ran answer rfl
  have found : (agent.beliefs.first search).1 = .ok (some answer) := congrArg Prod.fst ran
  exact BeliefBase.kept_of_first kept (Prod.ext found rfl)

theorem guarantees_holds (formula : Formula) (acyclic : θ.Acyclic) :
    Guarantees (fun found => ∀ answer, found = some answer → answer.Acyclic)
      (holds formula θ) := by
  refine guarantees_get_bind fun agent checks => guarantees_first ?_
  refine Search.solve_kept (fun θ s t θ' own found => ?_) formula acyclic
  rw [checks.occursCheck] at found
  exact own.of_unify? found

theorem guarantees_firstApplicable (literal : Term) (plans : List Plan) :
    Guarantees (fun found => ∀ plan bindings, found = some (plan, bindings) →
      plan ∈ plans ∧ bindings.Acyclic) (firstApplicable literal plans) := by
  induction plans with
  | nil => exact guarantees_pure fun _ _ same => by cases same
  | cons plan rest ih =>
    have others : Guarantees (fun found => ∀ chosen bindings, found = some (chosen, bindings) →
        chosen ∈ plan :: rest ∧ bindings.Acyclic) (firstApplicable literal rest) := by
      refine fun agent checks => ⟨(ih agent checks).1, ?_⟩
      intro found after ran chosen bindings same
      obtain ⟨member, acyclic⟩ := (ih agent checks).2 found after ran chosen bindings same
      exact ⟨List.mem_cons_of_mem _ member, acyclic⟩
    refine guarantees_get_bind fun agent checks => ?_
    dsimp only
    split
    next => exact others
    next θ found =>
      rw [checks.occursCheck] at found
      have acyclic := acyclic_empty.of_unify? found
      refine (guarantees_holds plan.context acyclic).bind fun found own => ?_
      split
      next => exact others
      next bindings =>
        refine guarantees_pure ?_
        rintro _ _ ⟨⟩
        exact ⟨List.mem_cons_self, own bindings rfl⟩

theorem guarantees_selectPlan (trigger : Trigger) (callerGoal : Option Term) :
    Guarantees (fun found => ∀ frame, found = some frame → frame.IsAcyclic)
      (selectPlan trigger callerGoal) := by
  refine bookkeeping_sameSetup.keeps_freshNumber.bind_guarantees fun n => ?_
  refine guarantees_get_bind fun agent checks => ?_
  refine (guarantees_firstApplicable _ _).bind fun found own => ?_
  split
  next => exact guarantees_pure fun _ same => by cases same
  next plan bindings =>
    refine (bookkeeping_sameSetup.keeps_written _).bind_guarantees fun _ => ?_
    refine (bookkeeping_sameSetup.keeps_reportNamed _ _).bind_guarantees fun _ => guarantees_pure ?_
    rintro _ ⟨⟩
    obtain ⟨relevant, acyclic⟩ := own plan bindings rfl
    have lacks := checks.plans plan (List.mem_of_mem_filter relevant)
    exact ⟨acyclic, Task.neverCollects_ofStatements lacks⟩

/-- An effect brings in acyclic bindings only, and nothing that collects answers. -/
def Effect.IsAcyclic : Effect → Prop
  | .failed => True
  | .proceeded bindings inserted => bindings.Acyclic ∧ ∀ task ∈ inserted, task.NeverCollects
  | .called callee => callee.IsAcyclic

theorem Effect.isAcyclic_proceeded (acyclic : θ.Acyclic) :
    (Effect.proceeded θ []).IsAcyclic :=
  ⟨acyclic, fun _ member => nomatch member⟩

theorem Effect.isAcyclic_ofBindings {found : Option Substitution}
    (own : ∀ answer, found = some answer → answer.Acyclic) :
    (Effect.ofBindings found).IsAcyclic := by
  cases found with
  | none => trivial
  | some answer => exact Effect.isAcyclic_proceeded (own answer rfl)

theorem guarantees_performBuiltin {name : String} (other : name ≠ "findall")
    (arguments : List Term) (acyclic : θ.Acyclic) :
    Guarantees (fun found => ∀ answer, found = some answer → answer.Acyclic)
      (performBuiltin name arguments θ) := by
  have book := bookkeeping_sameSetup
  have printing : Guarantees (fun found => ∀ answer, found = some answer → answer.Acyclic)
      (performPrint arguments θ) := by
    refine (book.keeps_mapM fun _ => book.keeps_displayed _ _).bind_guarantees fun texts => ?_
    refine (book.keeps_print _).bind_guarantees fun _ => guarantees_pure ?_
    rintro _ ⟨⟩
    exact acyclic
  unfold performBuiltin
  split
  next => exact printing
  next => exact printing
  next => exact guarantees_pure fun _ same => by cases same
  next =>
    unfold performMyName
    split
    next target =>
      refine guarantees_get_bind fun agent _ => guarantees_pure fun answer found => ?_
      exact acyclic.unify?_of_isGround rfl found
    next => exact guarantees_throw _
  next =>
    unfold performCount
    split
    next query target =>
      refine (book.keeps_answers _ _).bind_guarantees fun found => guarantees_pure ?_
      exact fun answer bound => acyclic.unify?_of_isGround rfl bound
    next => exact guarantees_throw _
  next => exact absurd rfl other
  next => exact guarantees_throw _

/-- What the environment returns is ground. -/
theorem acyclic_of_bindFields {fields : List (String × HostValue)} {arguments : List Term}
    {answer : Substitution}
    (ground : ∀ field ∈ fields, ∀ term, field.2.toTerm = .ok term → term.isGround = true)
    (acyclic : θ.Acyclic) (done : bindFields fields arguments θ = .ok (some answer)) :
    answer.Acyclic := by
  induction arguments generalizing θ with
  | nil =>
    cases done
    exact acyclic
  | cons argument rest ih =>
    cases argument with
    | atom name | number value | string value | compound functor arguments => exact ih acyclic done
    | var v =>
      rw [bindFields] at done
      split at done
      next => exact ih acyclic done
      next value present =>
        split at done
        next => cases done
        next term converted =>
          split at done
          next extended bound =>
            obtain ⟨before, after, split, -⟩ := List.lookup_eq_some_iff.mp present
            have own := ground (v.base, value) (by simp [split]) term converted
            exact ih (acyclic.unify?_of_isGround own bound) done
          next => cases done

theorem guarantees_performUser (name : String) (arguments : List Term) (acyclic : θ.Acyclic) :
    Guarantees (fun found => ∀ answer, found = some answer → answer.Acyclic)
      (performUser name arguments θ) := by
  have book := bookkeeping_sameSetup
  refine guarantees_get_bind fun agent checks => ?_
  dsimp only
  split
  next => exact guarantees_throw _
  next action found =>
    refine (book.keeps_mapM fun _ => book.keeps_resolve _ _).bind_guarantees fun resolved => ?_
    refine (book.keeps_record _).bind_guarantees fun _ => ?_
    refine fun agent checks' => ⟨checks', fun answer after ran extended same => ?_⟩
    have accepted : acceptReply name resolved θ (action resolved) = .ok answer :=
      congrArg Prod.fst ran
    subst same
    unfold acceptReply at accepted
    split at accepted
    next =>
      cases accepted
      exact acyclic
    next success =>
      split at accepted <;> cases accepted
      exact acyclic
    next fields reply =>
      exact acyclic_of_bindFields (checks.replies name action found resolved fields reply) acyclic
        accepted
    next => cases accepted

theorem guarantees_testOfLoop (condition : Formula) {body : List Statement}
    (fresh : List Variable) (lacks : Statement.lacksAll "findall" body = true)
    (acyclic : θ.Acyclic) :
    Guarantees Effect.IsAcyclic (executeTestOfLoop θ condition body fresh) := by
  have entered := acyclic.without fresh
  refine (guarantees_holds condition entered).bind fun found own => ?_
  split
  next => exact guarantees_pure (Effect.isAcyclic_proceeded entered)
  next extended =>
    refine guarantees_pure ⟨own extended rfl, fun task member => ?_⟩
    rcases List.mem_append.mp member with inside | last
    · exact Task.neverCollects_ofStatements lacks task inside
    · exact List.mem_singleton.mp last ▸ lacks

theorem guarantees_executeAchieve (θ : Substitution) (goal : Term) :
    Guarantees Effect.IsAcyclic (executeAchieve θ goal) := by
  have book := bookkeeping_sameSetup
  refine (book.keeps_resolve _ _).bind_guarantees fun goal => ?_
  refine (guarantees_selectPlan _ _).bind fun found own => ?_
  split
  next callee => exact guarantees_pure (own callee rfl)
  next =>
    refine (book.keeps_written _).bind_guarantees fun _ => ?_
    exact (book.keeps_reportNamed _ _).bind_guarantees fun _ => guarantees_pure trivial

theorem guarantees_executeTest (goal : Term) (acyclic : θ.Acyclic) :
    Guarantees Effect.IsAcyclic (executeTest θ goal) := by
  refine guarantees_get_bind fun agent checks => ?_
  have asked : Guarantees (fun found => ∀ answer, found = some answer → answer.Acyclic)
      (searching (·.first (Search.query agent.limits goal θ))) := by
    refine guarantees_first (Search.query_kept (fun θ s t θ' own found => ?_) goal acyclic)
    rw [checks.occursCheck] at found
    exact own.of_unify? found
  refine asked.bind fun found own => ?_
  split
  next answer => exact guarantees_pure (Effect.isAcyclic_proceeded (own answer rfl))
  next =>
    refine (bookkeeping_sameSetup.keeps_resolve _ _).bind_guarantees fun goal => ?_
    refine (guarantees_selectPlan _ _).bind fun found own => ?_
    split
    next callee => exact guarantees_pure (own callee rfl)
    next => exact guarantees_pure trivial

theorem guarantees_executeRemove (literal : Term) (acyclic : θ.Acyclic) :
    Guarantees Effect.IsAcyclic (executeRemove θ literal) := by
  refine (bookkeeping_sameSetup.keeps_resolve _ _).bind_guarantees fun pattern => ?_
  refine guarantees_get_bind fun agent checks => ?_
  have removing : Guarantees (fun found => ∀ extended, found = some extended → extended.Acyclic)
      (revise (·.removing agent.limits.occursCheck pattern θ)) := by
    refine fun agent' checks' => ⟨checks'.of_sameSetup (encompassing_sameSetup.keeps_revise _ _), ?_⟩
    rintro _ after ran extended rfl
    obtain ⟨log, whole⟩ := run_revise (·.removing agent.limits.occursCheck pattern θ) agent'
    have done := congrArg Prod.fst (whole.symm.trans ran)
    rw [checks.occursCheck] at done
    exact acyclic.of_removing done
  refine removing.bind fun found own => ?_
  split
  next => exact guarantees_pure (Effect.isAcyclic_proceeded acyclic)
  next extended =>
    refine (encompassing_sameSetup.posted _).bind_guarantees fun _ => guarantees_pure ?_
    exact Effect.isAcyclic_proceeded (own extended rfl)

theorem guarantees_executeReplace (literal : Term) (acyclic : θ.Acyclic) :
    Guarantees Effect.IsAcyclic (executeReplace θ literal) := by
  have proceeds := Effect.isAcyclic_proceeded acyclic
  have all := encompassing_sameSetup
  refine (all.keeps_resolve _ _).bind_guarantees fun fact => ?_
  refine all.keeps_get.bind_guarantees fun agent => ?_
  refine (all.keeps_revise _).bind_guarantees fun removed => ?_
  refine (all.keeps_forM fun _ _ => all.posted _).bind_guarantees fun _ => ?_
  dsimp only
  split
  next => exact guarantees_pure proceeds
  next => exact (all.posted _).bind_guarantees fun _ => guarantees_pure proceeds

theorem guarantees_executeAction {kind : ActionKind} {name : String} {arguments : List Term}
    (own : Task.NeverCollects (.statement (.action kind name arguments))) (acyclic : θ.Acyclic) :
    Guarantees Effect.IsAcyclic (execute θ (.statement (.action kind name arguments))) := by
  have performing : Guarantees (fun found => ∀ answer, found = some answer → answer.Acyclic)
      (perform kind name arguments θ) := by
    cases kind with
    | builtin =>
      refine guarantees_performBuiltin ?_ arguments acyclic
      simpa [Task.NeverCollects, Task.source, Statement.lacks] using own
    | user => exact guarantees_performUser name arguments acyclic
  exact performing.bind fun found own => guarantees_pure (Effect.isAcyclic_ofBindings own)

theorem guarantees_executeBranch {condition : Formula} {positive negative : List Statement}
    (own : Task.NeverCollects (.statement (.branch condition positive negative)))
    (acyclic : θ.Acyclic) :
    Guarantees Effect.IsAcyclic (execute θ (.statement (.branch condition positive negative))) := by
  obtain ⟨one, other⟩ : Statement.lacksAll "findall" positive = true ∧
      Statement.lacksAll "findall" negative = true := by
    simpa [Task.NeverCollects, Task.source, Statement.lacks] using own
  refine (guarantees_holds condition acyclic).bind fun found own => ?_
  split
  next extended => exact guarantees_pure ⟨own extended rfl, Task.neverCollects_ofStatements one⟩
  next => exact guarantees_pure ⟨acyclic, Task.neverCollects_ofStatements other⟩

/-- A task that collects no answers leaves acyclic bindings acyclic. -/
theorem guarantees_execute {task : Task} (own : task.NeverCollects) (acyclic : θ.Acyclic) :
    Guarantees Effect.IsAcyclic (execute θ task) := by
  have book := bookkeeping_sameSetup
  have believing := believing_sameSetup θ
  have proceeds := Effect.isAcyclic_proceeded acyclic
  cases task with
  | retest condition body fresh => exact guarantees_testOfLoop condition fresh own acyclic
  | statement step =>
    cases step with
    | achieve goal => exact guarantees_executeAchieve θ goal
    | achieveLater goal =>
      refine (book.keeps_resolve _ _).bind_guarantees fun goal => ?_
      exact (believing.achieved goal).bind_guarantees fun _ => guarantees_pure proceeds
    | test goal => exact guarantees_executeTest goal acyclic
    | add literal =>
      refine (book.keeps_resolve _ _).bind_guarantees fun fact => ?_
      exact (believing.added fact).bind_guarantees fun _ => guarantees_pure proceeds
    | remove literal => exact guarantees_executeRemove literal acyclic
    | replace literal => exact guarantees_executeReplace literal acyclic
    | action kind name arguments => exact guarantees_executeAction own acyclic
    | constraint relation left right =>
      exact (guarantees_holds _ acyclic).bind fun found own =>
        guarantees_pure (Effect.isAcyclic_ofBindings own)
    | branch condition positive negative => exact guarantees_executeBranch own acyclic
    | loop condition body => exact guarantees_testOfLoop condition _ own acyclic

theorem guarantees_unwind {frames : List Frame} (own : ∀ frame ∈ frames, frame.IsAcyclic) :
    Guarantees (fun found => ∀ later, found = some later → ∀ frame ∈ later, frame.IsAcyclic)
      (unwind frames) := by
  induction frames with
  | nil => exact guarantees_pure fun _ same => by cases same
  | cons frame below ih =>
    have belowOwn := (List.forall_mem_cons.mp own).2
    rw [unwind]
    split
    next =>
      refine (guarantees_selectPlan _ _).bind fun found chosen => ?_
      split
      next handler =>
        refine guarantees_pure ?_
        rintro _ ⟨⟩
        exact List.forall_mem_cons.mpr ⟨chosen handler rfl, belowOwn⟩
      next => exact ih belowOwn
    next => exact ih belowOwn

theorem guarantees_fail {intention : Intention}
    (own : ∀ frame ∈ intention.frames, frame.IsAcyclic) (place reason : String) :
    Guarantees (fun result => ∀ frame ∈ result.2.frames, frame.IsAcyclic)
      (fail intention place reason) := by
  have book := bookkeeping_sameSetup
  refine (book.keeps_reportNamed _ _).bind_guarantees fun _ => ?_
  refine (guarantees_unwind own).bind fun found kept => ?_
  split
  next later => exact guarantees_pure (kept later rfl)
  next =>
    exact (book.keeps_reportNamed _ _).bind_guarantees fun _ =>
      guarantees_pure fun _ member => nomatch member

theorem guarantees_failAt {intention : Intention}
    (own : ∀ frame ∈ intention.frames, frame.IsAcyclic) (task : Task) (reason : String) :
    Guarantees (fun result => ∀ frame ∈ result.2.frames, frame.IsAcyclic)
      (failAt intention task reason) :=
  (bookkeeping_sameSetup.keeps_written _).bind_guarantees fun _ => guarantees_fail own _ _

/-- The bindings of a finished goal flow back to its caller under the occurs check. -/
theorem guarantees_complete {intention : Intention} {finished : Frame} {below : List Frame}
    (own : ∀ frame ∈ below, frame.IsAcyclic) :
    Guarantees (fun result => ∀ frame ∈ result.2.frames, frame.IsAcyclic)
      (complete intention finished below) := by
  have book := bookkeeping_sameSetup
  unfold complete
  split
  next goal caller others waits =>
    obtain ⟨callerOwn, othersOwn⟩ := List.forall_mem_cons.mp own
    refine book.keeps_freshNumber.bind_guarantees fun n => ?_
    refine guarantees_get_bind fun agent checks => ?_
    dsimp only
    split
    next bindings found =>
      rw [checks.occursCheck] at found
      have later := callerOwn.bindings.of_unify? found
      exact guarantees_pure (List.forall_mem_cons.mpr ⟨⟨later, callerOwn.tasks⟩, othersOwn⟩)
    next => exact (book.keeps_written _).bind_guarantees fun _ => guarantees_fail own _ _
  next => exact guarantees_pure own

theorem guarantees_attempt {task : Task} (own : task.NeverCollects) (acyclic : θ.Acyclic) :
    Guarantees (fun result => ∀ effect, result = .ok effect → effect.IsAcyclic)
      (attempt θ task) := by
  refine fun agent checks => ⟨checks.of_sameSetup (keepsSetup_attempt θ task agent), ?_⟩
  rintro _ after ran effect rfl
  rw [attempt, run_tryCatch] at ran
  split at ran
  next value between executed =>
    obtain ⟨first, _, executed, rest⟩ := exists_of_run_bind executed
    cases rest
    cases ran
    exact (guarantees_execute own acyclic agent checks).2 _ _ executed
  next =>
    split at ran
    next => cases ran
    next => cases ran

/-- No step makes a cycle in the bindings of a frame. -/
theorem guarantees_step {intention : Intention}
    (own : ∀ frame ∈ intention.frames, frame.IsAcyclic) :
    Guarantees (fun result => ∀ frame ∈ result.2.frames, frame.IsAcyclic) (step intention) := by
  unfold step
  split
  next => exact guarantees_pure own
  next frame below shape =>
    obtain ⟨first, belowOwn⟩ := List.forall_mem_cons.mp (shape ▸ own)
    split
    next => exact guarantees_complete belowOwn
    next task tasks left =>
      obtain ⟨taskOwn, tasksOwn⟩ := List.forall_mem_cons.mp (left ▸ first.tasks)
      let counted : Intention := { intention with steps := intention.steps + 1 }
      have failing (reason : String) := @guarantees_failAt counted own task reason
      refine guarantees_get_bind fun agent _ => ?_
      dsimp only
      split
      next => exact (bookkeeping_sameSetup.keeps_written _).bind_guarantees fun _ => failing _
      next =>
        refine (guarantees_attempt taskOwn first.bindings).bind fun result follows => ?_
        split
        next => exact failing _
        next => exact failing _
        next bindings inserted =>
          obtain ⟨later, new⟩ := follows _ rfl
          refine guarantees_pure (List.forall_mem_cons.mpr ⟨⟨later, ?_⟩, belowOwn⟩)
          exact List.forall_mem_append.mpr ⟨new, tasksOwn⟩
        next callee =>
          refine guarantees_pure (List.forall_mem_cons.mpr ⟨follows _ rfl, ?_⟩)
          exact List.forall_mem_cons.mpr ⟨⟨first.bindings, tasksOwn⟩, belowOwn⟩

section Reaching

variable {source : Variable → Prop} {limits : Limits} {environment : ActionTable → Prop}
  {after : Agent} {current next : Option Intention}

/-- The occurs check is on, and the intention under way has acyclic bindings. -/
structure Clear (agent : Agent) (current : Option Intention) : Prop where
  checks : agent.Checks
  frames : ∀ intention, current = some intention → ∀ frame ∈ intention.frames, frame.IsAcyclic

theorem Checks.clear (checks : agent.Checks) : Clear agent none :=
  ⟨checks, fun _ same => by cases same⟩

theorem Clear.turn (clear : Clear agent current)
    (replies : ∀ actions, environment actions → actions.RepliesGround)
    (turn : Turn source environment agent current after next) : Clear after next := by
  have book := bookkeeping_sameSetup
  have shorter (rest : List Trigger) : Checks { agent with events := rest } :=
    ⟨clear.checks.occursCheck, clear.checks.plans, clear.checks.replies⟩
  cases turn with
  | varied acts =>
    exact ⟨⟨clear.checks.occursCheck, clear.checks.plans, replies _ acts⟩, clear.frames⟩
  | noted begun journal =>
    exact ⟨clear.checks.of_sameSetup ⟨rfl, rfl, rfl, rfl⟩, clear.frames⟩
  | asked request written =>
    have kept := encompassing_sameSetup.keeps_perform_request request agent
    exact (clear.checks.of_sameSetup kept).clear
  | began queued chosen begun =>
    obtain ⟨kept, own⟩ := (guarantees_selectPlan _ none).of_run (shorter _) chosen
    refine ⟨kept.of_sameSetup ((book.keeps_begin _).of_run begun), ?_⟩
    rintro _ ⟨⟩ frame member
    cases begun
    rw [List.mem_singleton.mp member]
    exact own _ rfl _ rfl
  | passed queued chosen refused =>
    exact ((guarantees_selectPlan _ none).of_run (shorter _) chosen).1.clear
  | stepped done =>
    obtain ⟨kept, own⟩ := (guarantees_step (clear.frames _ rfl)).of_run clear.checks done
    refine ⟨kept, ?_⟩
    rintro _ ⟨⟩
    exact own _ rfl
  | stopped done last => exact (clear.checks.of_sameSetup (sameSetup_step done)).clear
  | ended done => exact clear.checks.clear

/-- Whatever happens, an agent keeps its plans. -/
theorem Turn.same_plans (turn : Turn source environment agent current after next) :
    after.plans = agent.plans := by
  have book := bookkeeping_sameSetup
  cases turn with
  | varied | noted | ended => rfl
  | asked request written =>
    exact (encompassing_sameSetup.keeps_perform_request request agent).plans
  | began queued chosen begun =>
    exact ((book.keeps_begin _).of_run begun).plans.trans
      ((book.keeps_selectPlan _ none).of_run chosen).plans
  | passed queued chosen refused => exact ((book.keeps_selectPlan _ none).of_run chosen).plans
  | stepped done | stopped done => exact (sameSetup_step done).plans

theorem Reachable.clear (checked : limits.occursCheck = true)
    (replies : ∀ actions, environment actions → actions.RepliesGround)
    (reachable : Reachable source limits environment agent current)
    (lacks : ∀ plan ∈ agent.plans, Statement.lacksAll "findall" plan.body = true) :
    Clear agent current := by
  induction reachable with
  | @created program written actions acts name begun journal =>
    have kept := encompassing_sameSetup.keeps_load program
      { idle name limits program.plans actions begun with journal }
    have started : Checks { idle name limits program.plans actions begun with journal } :=
      ⟨checked, kept.plans ▸ lacks, replies actions acts⟩
    exact (started.of_sameSetup kept).clear
  | turned before turn ih => exact (ih (turn.same_plans ▸ lacks)).turn replies turn

/-- With the occurs check on, in an environment that returns ground terms and under plans that
collect no answers, all frames of an intention have acyclic bindings, so that substituting ends. -/
theorem Reachable.acyclic (checked : limits.occursCheck = true)
    (replies : ∀ actions, environment actions → actions.RepliesGround) {intention : Intention}
    (reachable : Reachable source limits environment agent (some intention))
    (lacks : ∀ plan ∈ agent.plans, Statement.lacksAll "findall" plan.body = true) :
    ∀ frame ∈ intention.frames, frame.bindings.Acyclic ∧
      ∀ term, Resolves frame.bindings term (frame.bindings.apply term) := by
  intro frame member
  have own := ((reachable.clear checked replies lacks).frames _ rfl frame member).bindings
  exact ⟨own, own.resolves⟩

/-- Collecting binds a variable to a list of terms in which the variable occurs, also with the
occurs check on. -/
theorem findall_cycles {v : Variable} (deep : 0 ≤ agent.limits.maxDepth)
    (free : θ.find? v = none) (functor : String) :
    ∃ bindings after, (execute θ (.statement (.action .builtin "findall"
        [.compound functor [.var v], Term.truth, .var v]))).run.run agent =
      (.ok (.proceeded bindings []), after) ∧ ¬bindings.Acyclic := by
  let collected := Term.ofList [.compound functor [.var v]] Term.nil
  have cyclic : ¬(θ.insert v collected).Acyclic := by
    refine fun acyclic => acyclic v (.single ⟨collected, by rw [find?_insert, if_pos rfl], ?_⟩)
    simp [collected, Term.ofList, Term.cons]
  obtain ⟨levels, enough⟩ : ∃ levels, (agent.limits.maxDepth + 1).toNat = levels + 1 :=
    ⟨agent.limits.maxDepth.toNat, by omega⟩
  have found : agent.beliefs.answers (Search.solve agent.limits (.literal Term.truth) θ) =
      (.ok [θ], agent.beliefs) := by
    rw [Search.solve, Search.solvingWith, Search.query, enough]
    rfl
  have own : θ.apply (.compound functor [.var v]) = .compound functor [.var v] := by
    rw [apply_compound, List.map_singleton, apply_unbound free]
  have bound : bindTo (.var v) collected θ = some (θ.insert v collected) := by
    rw [bindTo, unify?, unifyWithin, walk_unbound free]
    rfl
  have asked : (answers (.literal Term.truth) θ).run.run agent = (.ok [θ], agent) := by
    show ((ofExcept (agent.beliefs.answers _).1 : AgentM _).run.run
      { agent with beliefs := (agent.beliefs.answers _).2 }) = _
    rw [found]
    rfl
  have collects : ∃ after, (performFindall [.compound functor [.var v], Term.truth, .var v]
      θ).run.run agent = (.ok (some (θ.insert v collected)), after) := by
    rw [performFindall, run_bind, show θ.apply Term.truth = Term.truth from apply_atom θ "true",
      asked]
    dsimp only
    rw [List.map_singleton, own, show Term.ofList [.compound functor [.var v]] Term.nil = collected
      from rfl, bound]
    exact ⟨_, rfl⟩
  obtain ⟨after, collects⟩ := collects
  refine ⟨θ.insert v collected, after, ?_, cyclic⟩
  have runs : execute θ (.statement (.action .builtin "findall"
      [.compound functor [.var v], Term.truth, .var v])) =
      performFindall [.compound functor [.var v], Term.truth, .var v] θ >>=
        fun found => pure (.ofBindings found) := rfl
  rw [runs, run_bind, collects]
  rfl

/-- A goal whose plan collects instances of a variable in that variable. -/
def collecting : Program where
  beliefs := []
  rules := []
  goals := [.atom "g"]
  plans := [⟨.goal (.atom "g"), .literal Term.truth, [.action .builtin "findall"
    [.compound "f" [.var ⟨"X", []⟩], Term.truth, .var ⟨"X", []⟩]], none⟩]

theorem isWritten_collecting : collecting.IsWritten := by
  refine ⟨nofun, ?_, ?_⟩
  · intro goal member v occurs
    rw [List.mem_singleton.mp member] at occurs
    cases occurs
  · intro plan member v occurs
    have onlyX : v ∈ [⟨"X", []⟩, ⟨"X", []⟩] := by
      rw [List.mem_singleton.mp member] at occurs
      exact occurs
    rcases List.mem_pair.mp onlyX with rfl | rfl <;> exact .inl ⟨rfl, by decide⟩

/-- It leads to a frame whose bindings are cyclic. -/
theorem reachable_cyclic : ∃ agent intention,
    Reachable Variable.IsWritten ⟨1, 2, true⟩ (Eq .empty) agent (some intention) ∧
      ∃ frame ∈ intention.frames, ¬frame.bindings.Acyclic := by
  have created : Reachable Variable.IsWritten ⟨1, 2, true⟩ (Eq .empty) _ none :=
    .created collecting isWritten_collecting.over rfl "a" 0 ⟨[], [], []⟩
  have began := created.turned (.began rfl rfl rfl)
  have collected := began.turned (.stepped rfl)
  refine ⟨_, _, collected, _, List.mem_cons_self, fun acyclic => ?_⟩
  exact acyclic ⟨"X", []⟩
    (.single ⟨Term.ofList [.compound "f" [.var ⟨"X", []⟩]] Term.nil, rfl, List.mem_cons_self⟩)

end Reaching

end Agent

end AgentSpeak
