import AgentSpeak.Agent.Execution
import AgentSpeak.Proofs.Agent.Action
import AgentSpeak.Proofs.Agent.Operations

/-!
What a task can do to its frame, and what a step can do to a stack of frames. The frame of a chosen
plan has known variables, and its literal is the literal of the event with a mark that no goal's result
has.
-/

namespace AgentSpeak

open Substitution

namespace Statement

theorem mem_varsAll {statement : Statement} {body : List Statement} {v : Variable}
    (member : statement ∈ body) (occurs : v ∈ statement.vars) : v ∈ varsAll body := by
  rw [varsAll_eq_flatMap]
  exact List.mem_flatMap.mpr ⟨statement, member, occurs⟩

end Statement

theorem Task.over_ofStatements {allowed : Variable → Prop} {body : List Statement}
    (ranges : ∀ v ∈ Statement.varsAll body, allowed v) :
    ∀ task ∈ Task.ofStatements body, ∀ v ∈ task.vars, allowed v := by
  intro task member v occurs
  obtain ⟨statement, inside, same⟩ := List.mem_map.mp member
  rw [← same] at occurs
  exact ranges v (Statement.mem_varsAll inside occurs)

/-- The frame chosen for an event waits for nobody else than was asked for. -/
structure Agent.Answers (trigger : Trigger) (callerGoal : Option Term) (frame : Frame) : Prop where
  waits : frame.callerGoal = callerGoal
  renamed : ∃ n : Nat, frame.literal = trigger.literal.mark ["e" ++ toString n]

namespace Watch

variable {source : Variable → Prop} {since : Nat} {watch : Watch} {literal : Term}

/-- A plan of the source has known variables only. -/
theorem known_of_source (watch : Watch) {plan : Plan} (given : ∀ v ∈ plan.vars, source v) :
    ∀ v ∈ plan.vars, watch.Known source v :=
  fun v member => .given (given v member)

theorem ensures_firstApplicable (named : watch.IsNamed source since)
    (ranges : literal.Over (watch.Known source)) {plans : List Plan}
    (given : ∀ plan ∈ plans, ∀ v ∈ plan.vars, source v) :
    Ensures source since watch (firstApplicable literal plans) fun found after =>
      ∀ plan bindings, found = some (plan, bindings) →
        plan ∈ plans ∧ bindings.Over (after.Known source) := by
  induction plans generalizing watch with
  | nil => exact ensures_pure named fun _ _ same => by cases same
  | cons plan rest ih =>
    have restGiven := fun other member => given other (List.mem_cons_of_mem plan member)
    have onRest {watch : Watch} (named : watch.IsNamed source since)
        (ranges : literal.Over (watch.Known source)) :
        Ensures source since watch (firstApplicable literal rest) fun found after =>
          ∀ chosen bindings, found = some (chosen, bindings) →
            chosen ∈ plan :: rest ∧ bindings.Over (after.Known source) := by
      refine (ih named ranges restGiven).mono fun found after _ own chosen bindings same => ?_
      obtain ⟨member, bindingsOver⟩ := own chosen bindings same
      exact ⟨List.mem_cons_of_mem _ member, bindingsOver⟩
    refine (ensures_get named).bind ?_
    rintro _ _ - - ⟨rfl, rfl⟩
    dsimp only
    split
    next => exact onRest named ranges
    next θ unified =>
      have known := known_of_source watch (given plan List.mem_cons_self)
      have triggerOver : plan.trigger.literal.Over (watch.Known source) :=
        fun v member => known v (by simp [Plan.vars, member])
      have contextOver : plan.context.Over (watch.Known source) :=
        fun v member => known v (by simp [Plan.vars, member])
      have bindingsOver := over_empty.unify? triggerOver ranges unified
      refine (ensures_holds named plan.context contextOver bindingsOver).bind ?_
      intro found after later named' foundOver
      split
      next => exact onRest named' (ranges.mono later.known)
      next bindings =>
        refine ensures_pure named' fun chosen own same => ?_
        cases same
        exact ⟨List.mem_cons_self, foundOver _ rfl⟩

theorem ensures_selectPlan (named : watch.IsNamed source since) {trigger : Trigger}
    (callerGoal : Option Term) (own : trigger.literal.Over (watch.Known source))
    (goalOver : ∀ goal, callerGoal = some goal → goal.Over (watch.Known source)) :
    Ensures source since watch (selectPlan trigger callerGoal) fun found after =>
      ∀ frame, found = some frame →
        frame.Over (after.Known source) ∧ Agent.Answers trigger callerGoal frame := by
  refine (ensures_freshNumber named).bind ?_
  rintro n fresh later named' ⟨rfl, -⟩
  refine (ensures_get named').bind ?_
  rintro _ _ - - ⟨rfl, rfl⟩
  have literalOver : (trigger.literal.mark ["e" ++ toString fresh.agent.renamings]).Over
      (fresh.Known source) :=
    Term.over_mark fun v inside => .event (later.known v (own v inside)) (Nat.le_refl _)
  have given : ∀ plan ∈ fresh.agent.relevantPlans trigger, ∀ v ∈ plan.vars, source v :=
    fun plan member => named'.agent.plans plan (List.mem_filter.mp member).1
  refine (ensures_firstApplicable named' literalOver given).bind ?_
  intro found after more named'' chosen
  split
  next => exact ensures_pure named'' fun _ same => by cases same
  next plan bindings =>
    obtain ⟨member, bindingsOver⟩ := chosen plan bindings rfl
    refine (ensures_written named'' _).bind ?_
    rintro _ _ - - rfl
    refine (ensures_reportNamed named'' _ _).bind fun _ last most namedLast _ => ?_
    refine ensures_pure namedLast ?_
    rintro _ ⟨⟩
    have known := known_of_source last (given plan member)
    have onwards := more.trans most
    refine ⟨⟨known, bindingsOver.mono most.known, literalOver.mono onwards.known, ?_, ?_⟩,
      rfl, _, rfl⟩
    · exact Task.over_ofStatements fun v inside => known v (by simp [Plan.vars, inside])
    · exact fun goal same => (goalOver goal same).mono (later.trans onwards).known

end Watch

/-- A task that asks for a goal, as the plan wrote it. -/
def Task.Asks (task : Task) (written : Term) : Prop :=
  task = .statement (.achieve written) ∨ task = .statement (.test written)

/-- The variables of some tasks are allowed. -/
def Task.AllOver (allowed : Variable → Prop) (tasks : List Task) : Prop :=
  ∀ task ∈ tasks, ∀ v ∈ task.vars, allowed v

namespace Agent

variable {θ : Substitution} {task : Task} {known : Variable → Prop}

/-- A frame called for a goal under some bindings: its caller waits for the goal as it was resolved,
and its literal is this goal with a mark. -/
structure CalledBy (θ : Substitution) (task : Task) (goal : Term) (callee : Frame) : Prop where
  asks : ∃ written, task.Asks written ∧ θ.resolve written = .ok goal
  waits : callee.callerGoal = some goal
  renamed : ∃ n : Nat, callee.literal = goal.mark ["e" ++ toString n]

/-- An effect brings in known variables only, and a frame is called for a goal that the task asks
for. -/
inductive Effect.Follows (known : Variable → Prop) (θ : Substitution) (task : Task) :
    Effect → Prop where
  | failed : Follows known θ task .failed
  | proceeded (bindings : later.Over known) (tasks : Task.AllOver known inserted) :
      Follows known θ task (.proceeded later inserted)
  | called (ranges : callee.Over known) (calls : CalledBy θ task goal callee) :
      Follows known θ task (.called callee)

theorem follows_bindings {bindings : Substitution} (own : bindings.Over known) :
    Effect.Follows known θ task (.proceeded bindings []) :=
  .proceeded own fun _ member => nomatch member

end Agent

namespace Watch

open Agent

variable {source : Variable → Prop} {since : Nat} {watch : Watch} {θ : Substitution} {task : Task}

/-- A computation of a task's effect. -/
abbrev Executes (source : Variable → Prop) (since : Nat) (watch : Watch) (θ : Substitution)
    (task : Task) (watched : WatchM Effect) : Prop :=
  Ensures source since watch watched fun effect after => effect.Follows (after.Known source) θ task

theorem executes_achieve (named : watch.IsNamed source since) (own : θ.Over (watch.Known source))
    {goal : Term} (ranges : goal.Over (watch.Known source)) :
    Executes source since watch θ (.statement (.achieve goal)) (executeAchieve θ goal) := by
  refine (ensures_resolve named own ranges).bind ?_
  rintro resolved _ - - ⟨done, rfl, resolvedOver⟩
  refine (ensures_selectPlan named (some resolved) resolvedOver fun _ same => ?_).bind ?_
  · cases same
    exact resolvedOver
  intro found after later named' own'
  split
  next callee =>
    obtain ⟨calleeOver, answers⟩ := own' callee rfl
    exact ensures_pure named'
      (.called calleeOver ⟨⟨goal, .inl rfl, done⟩, answers.waits, answers.renamed⟩)
  next =>
    refine (ensures_written named' _).bind ?_
    rintro _ _ - - rfl
    refine (ensures_reportNamed named' _ _).bind fun _ last _ namedLast _ => ?_
    exact ensures_pure namedLast .failed

theorem executes_test (named : watch.IsNamed source since) (own : θ.Over (watch.Known source))
    {goal : Term} (ranges : goal.Over (watch.Known source)) :
    Executes source since watch θ (.statement (.test goal)) (executeTest θ goal) := by
  refine (ensures_get named).bind ?_
  rintro _ _ - - ⟨rfl, rfl⟩
  refine (ensures_searching (·.firstOf (Course.query watch.agent.limits goal θ)) named
    ((isNamed_beliefs named).firstOf (Course.draws_query ranges own))).bind ?_
  intro found after later named' answerOver
  split
  next answer => exact ensures_pure named' (follows_bindings (answerOver answer rfl))
  next =>
    refine (ensures_resolve named' (own.mono later.known) (ranges.mono later.known)).bind ?_
    rintro resolved _ - - ⟨resolvedBy, rfl, resolvedOver⟩
    refine (ensures_selectPlan named' (some resolved) resolvedOver fun _ same => ?_).bind ?_
    · cases same
      exact resolvedOver
    intro found last more namedLast own'
    split
    next callee =>
      obtain ⟨calleeOver, answers⟩ := own' callee rfl
      exact ensures_pure namedLast
        (.called calleeOver ⟨⟨goal, .inr rfl, resolvedBy⟩, answers.waits, answers.renamed⟩)
    next => exact ensures_pure namedLast .failed

theorem executes_remove (named : watch.IsNamed source since) (own : θ.Over (watch.Known source))
    {literal : Term} (ranges : literal.Over (watch.Known source)) :
    Executes source since watch θ task (quietly (executeRemove θ literal)) := by
  refine (ensures_resolve named own ranges).next ?_
  rintro pattern _ - - ⟨-, rfl, patternOver⟩
  refine (ensures_get named).next ?_
  rintro _ _ - - ⟨rfl, rfl⟩
  refine (ensures_revise named (named.agent.beliefs.removing _ pattern θ)
    (BeliefBase.sameRules_removing _ _ pattern θ)).next ?_
  intro found after later named' removed
  split
  next => exact ensures_quietly_pure named' (follows_bindings (own.mono later.known))
  next extended =>
    have extendedOver := BeliefBase.over_of_removing named.agent.beliefs patternOver own removed
    have postedOver := (extendedOver.apply patternOver).mono later.known
    refine (ensures_post named' postedOver).next fun _ last more namedLast _ => ?_
    exact ensures_quietly_pure namedLast
      (follows_bindings (extendedOver.mono (later.trans more).known))

theorem executes_replace (named : watch.IsNamed source since) (own : θ.Over (watch.Known source))
    {literal : Term} (ranges : literal.Over (watch.Known source)) :
    Executes source since watch θ task (quietly (executeReplace θ literal)) := by
  refine (ensures_resolve named own ranges).next ?_
  rintro fact _ - - ⟨-, rfl, factOver⟩
  refine (ensures_get named).next ?_
  rintro _ _ - - ⟨rfl, rfl⟩
  refine (ensures_revise named (named.agent.beliefs.replacing _ fact)
    (BeliefBase.sameRules_replacing _ _ fact)).next ?_
  intro removed after later named' done
  obtain ⟨factGround, removedGround⟩ := BeliefBase.ground_of_replacing named.agent.beliefs done
  refine (ensures_postAll named' (fun _ => rfl) fun old member =>
    removedGround old (List.mem_filter.mp member).1).next fun _ next more namedNext _ => ?_
  have grown := later.trans more
  dsimp only
  split
  next => exact ensures_quietly_pure namedNext (follows_bindings (own.mono grown.known))
  next =>
    refine (ensures_post namedNext (Term.over_of_isGround factGround)).next
      fun _ last most namedLast _ => ?_
    exact ensures_quietly_pure namedLast (follows_bindings (own.mono (grown.trans most).known))

theorem executes_testOfLoop (named : watch.IsNamed source since)
    (own : θ.Over (watch.Known source)) {condition : Formula} {body : List Statement}
    {fresh : List Variable}
    (ranges : ∀ v ∈ (Task.retest condition body fresh).vars, watch.Known source v) :
    Executes source since watch θ task (executeTestOfLoop θ condition body fresh) := by
  have entered := own.without fresh
  have conditionOver : condition.Over (watch.Known source) :=
    fun v member => ranges v (by simp [Task.vars, member])
  refine (ensures_holds named condition conditionOver entered).bind ?_
  intro found after later named' foundOver
  split
  next => exact ensures_pure named' (follows_bindings (entered.mono later.known))
  next extended =>
    refine ensures_pure named' (.proceeded (foundOver _ rfl) ?_)
    intro inserted member
    rcases List.mem_append.mp member with inBody | last
    · exact Task.over_ofStatements
        (fun v inside => later.known v (ranges v (by simp [Task.vars, inside]))) inserted inBody
    · rw [List.mem_singleton.mp last]
      exact fun v inside => later.known v (ranges v inside)

theorem executes_action {watched : WatchM (Option Substitution)}
    (binds : Binds source since watch watched) :
    Executes source since watch θ task (do return .ofBindings (← watched)) := by
  refine Ensures.bind binds fun found after _ named' own => ?_
  refine ensures_pure named' ?_
  cases found with
  | none => exact .failed
  | some answer => exact follows_bindings (own answer rfl)

theorem executes_achieveLater (named : watch.IsNamed source since)
    (own : θ.Over (watch.Known source)) {goal : Term} (ranges : goal.Over (watch.Known source)) :
    Executes source since watch θ (.statement (.achieveLater goal))
      (execute θ (.statement (.achieveLater goal))) := by
  refine (ensures_resolve named own ranges).bind ?_
  rintro resolved _ - - ⟨-, rfl, resolvedOver⟩
  refine (ensures_post named resolvedOver).bind fun _ after later named' _ => ?_
  exact ensures_pure named' (follows_bindings (own.mono later.known))

theorem executes_add (named : watch.IsNamed source since) (own : θ.Over (watch.Known source))
    {literal : Term} (ranges : literal.Over (watch.Known source)) :
    Executes source since watch θ (.statement (.add literal))
      (execute θ (.statement (.add literal))) := by
  refine (ensures_resolve named own ranges).bind ?_
  rintro fact _ - - ⟨-, rfl, factOver⟩
  refine (ensures_addBelief named fact).bind fun _ after later named' _ => ?_
  exact ensures_pure named' (follows_bindings (own.mono later.known))

theorem executes_branch (named : watch.IsNamed source since) (own : θ.Over (watch.Known source))
    {condition : Formula} {positive negative : List Statement}
    (ranges : ∀ v ∈ (Task.statement (.branch condition positive negative)).vars,
      watch.Known source v) :
    Executes source since watch θ (.statement (.branch condition positive negative))
      (execute θ (.statement (.branch condition positive negative))) := by
  have conditionOver : condition.Over (watch.Known source) :=
    fun v member => ranges v (by simp [Task.vars, Statement.vars, member])
  refine (ensures_holds named condition conditionOver own).bind ?_
  intro found after later named' foundOver
  split
  next extended =>
    refine ensures_pure named' (.proceeded (foundOver _ rfl) ?_)
    exact Task.over_ofStatements fun v inside =>
      later.known v (ranges v (by simp [Task.vars, Statement.vars, inside]))
  next =>
    refine ensures_pure named' (.proceeded (own.mono later.known) ?_)
    exact Task.over_ofStatements fun v inside =>
      later.known v (ranges v (by simp [Task.vars, Statement.vars, inside]))

/-- The variables that a loop frees are known where it is entered. -/
theorem executes_loop (named : watch.IsNamed source since) (own : θ.Over (watch.Known source))
    {condition : Formula} {body : List Statement}
    (ranges : ∀ v ∈ (Task.statement (.loop condition body)).vars, watch.Known source v) :
    Executes source since watch θ (.statement (.loop condition body))
      (execute θ (.statement (.loop condition body))) := by
  refine executes_testOfLoop named own fun v member => ?_
  rcases List.mem_append.mp member with written | unbound
  · exact ranges v written
  · obtain ⟨w, inside, walked⟩ := List.mem_filterMap.mp unbound
    split at walked
    next free found =>
      cases walked
      exact Term.over_var.mp (found ▸ own.walk (Term.over_var.mpr (ranges w inside)))
    next => cases walked

/-- Running a task brings in known variables only, and calls a frame only for a goal of the task. -/
theorem executes (named : watch.IsNamed source since) (own : θ.Over (watch.Known source))
    (ranges : ∀ v ∈ task.vars, watch.Known source v) :
    Executes source since watch θ task (execute θ task) := by
  cases task with
  | retest condition body fresh => exact executes_testOfLoop named own ranges
  | statement step =>
    cases step with
    | achieve goal => exact executes_achieve named own ranges
    | achieveLater goal => exact executes_achieveLater named own ranges
    | test goal => exact executes_test named own ranges
    | add literal => exact executes_add named own ranges
    | remove literal => exact executes_remove named own ranges
    | replace literal => exact executes_replace named own ranges
    | action kind name arguments =>
      refine executes_action (binds_perform named own kind name fun argument member v occurs =>
        ranges v ?_)
      show v ∈ Term.varsAll arguments
      rw [Term.varsAll_eq_flatMap]
      exact List.mem_flatMap.mpr ⟨argument, member, occurs⟩
    | constraint relation left right =>
      exact executes_action (ensures_holds named (.comparison relation left right) ranges own)
    | branch condition positive negative => exact executes_branch named own ranges
    | loop condition body => exact executes_loop named own ranges

end Watch

end AgentSpeak
