import AgentSpeak.Agent.Cycle
import AgentSpeak.Proofs.Agent.Reachable

/-!
Relations between an agent and what a computation leaves of it, whether it fails or not. A relation
that every single change keeps is kept by whole steps of intentions; the changes of belief are left
open, because they are what such a relation is about.
-/

namespace AgentSpeak

namespace BeliefBase

theorem first_eq (base : BeliefBase) (search : Search) :
    ∃ renamings, (base.first search).2 = { base with renamings } := by
  obtain ⟨n, -, same⟩ := base.next_eq search
  unfold first
  split <;> simp_all

theorem answers_eq (base : BeliefBase) (search : Search) :
    ∃ renamings, (base.answers search).2 = { base with renamings } := by
  obtain ⟨n, -, same⟩ := base.all_eq search
  unfold answers
  split <;> simp_all

end BeliefBase

namespace Agent

variable {α β : Type} {relation : Agent → Agent → Prop} {computation : AgentM α}

/-- An event with a text is put at the end of the queue; another one is refused. -/
theorem run_post (event : Trigger) (agent : Agent) : ∃ log,
    (post event).run.run agent =
      if event.isWritable then
        (.ok (), { agent with journal.log := log, events := agent.events ++ [event] })
      else (.error .unwritable, agent) := by
  unfold post
  cases event.isWritable with
  | false => exact ⟨agent.journal.log, rfl⟩
  | true => exact ⟨_, rfl⟩

theorem run_reports (texts : List String) (agent : Agent) : ∃ log,
    (texts.forM (report .debug)).run.run agent = (.ok (), { agent with journal.log := log }) := by
  induction texts generalizing agent with
  | nil => exact ⟨agent.journal.log, rfl⟩
  | cons text rest ih =>
    exact ih { agent with journal.log := ⟨.debug, text⟩ :: agent.journal.log }

/-- An operation on the beliefs changes them and the reports, whether it fails or not. -/
theorem run_revise (change : BeliefBase → BeliefBase.Revision α) (agent : Agent) : ∃ log,
    (revise change).run.run agent = ((change agent.beliefs).outcome,
      { agent with beliefs := (change agent.beliefs).base, journal.log := log }) := by
  obtain ⟨log, ran⟩ := run_reports (change agent.beliefs).reports
    { agent with beliefs := (change agent.beliefs).base }
  refine ⟨log, ?_⟩
  show ((change agent.beliefs).reports.forM (report .debug) >>= fun _ =>
    ofExcept (change agent.beliefs).outcome).run.run
      { agent with beliefs := (change agent.beliefs).base } = _
  rw [run_bind, ran]
  rfl

/-- Any agent is related to what a computation leaves of it. -/
def Keeps (relation : Agent → Agent → Prop) (computation : AgentM α) : Prop :=
  ∀ agent, relation agent (leaves computation agent)

/-- A relation that composes, and that holds across what an agent does while it looks for an answer or
a plan: it reports, and it uses up numbers. -/
structure Deliberating (relation : Agent → Agent → Prop) : Prop where
  refl : ∀ agent, relation agent agent
  trans : ∀ {one two three}, relation one two → relation two three → relation one three
  logged : ∀ agent log, relation agent { agent with journal := { agent.journal with log } }
  renamed : ∀ agent renamings, relation agent { agent with renamings }
  searched : ∀ agent renamings,
    relation agent { agent with beliefs := { agent.beliefs with renamings } }

/-- A relation that composes, and that holds across all changes but those of beliefs and of the
queue. -/
structure Bookkeeping (relation : Agent → Agent → Prop) : Prop extends Deliberating relation where
  noted : ∀ agent begun journal, relation agent { agent with intentions := begun, journal }
  logged := fun agent log => noted agent agent.intentions { agent.journal with log }

/-- The changes of belief and of the queue that a task makes under its bindings keep a relation. -/
structure Believing (relation : Agent → Agent → Prop) (θ : Substitution) : Prop where
  achieved : ∀ goal, Keeps relation (achieve goal)
  added : ∀ fact, Keeps relation (addBelief fact)
  removed : ∀ literal, Keeps relation (executeRemove θ literal)
  replaced : ∀ literal, Keeps relation (executeReplace θ literal)

namespace Deliberating

variable (quiet : Deliberating relation)

include quiet

theorem keeps_pure (value : α) : Keeps relation (pure value) :=
  fun agent => quiet.refl agent

theorem keeps_throw (fault : Fault) : Keeps relation (throw fault : AgentM α) :=
  fun agent => quiet.refl agent

theorem keeps_get : Keeps relation get :=
  fun agent => quiet.refl agent

theorem keeps_ofExcept (result : Except Fault α) : Keeps relation (ofExcept result) :=
  fun agent => quiet.refl agent

theorem keeps_bind {next : α → AgentM β} (first : Keeps relation computation)
    (rest : ∀ value, Keeps relation (next value)) : Keeps relation (computation >>= next) := by
  intro agent
  have start := first agent
  unfold leaves at start ⊢
  rw [run_bind]
  rcases outcome : computation.run.run agent with ⟨fault | value, after⟩
  · rwa [outcome] at start
  · rw [outcome] at start
    exact quiet.trans start (rest value after)

theorem keeps_tryCatch {handler : Fault → AgentM α} (first : Keeps relation computation)
    (caught : ∀ fault, Keeps relation (handler fault)) :
    Keeps relation (tryCatch computation handler) := by
  intro agent
  have start := first agent
  unfold leaves at start ⊢
  rw [run_tryCatch]
  rcases outcome : computation.run.run agent with ⟨fault | value, after⟩
  · rw [outcome] at start
    exact quiet.trans start (caught fault after)
  · rwa [outcome] at start

theorem keeps_forM {items : List β} {each : β → AgentM PUnit}
    (one : ∀ item ∈ items, Keeps relation (each item)) : Keeps relation (items.forM each) := by
  induction items with
  | nil => exact quiet.keeps_pure _
  | cons item rest ih =>
    refine quiet.keeps_bind (one item List.mem_cons_self) fun _ => ?_
    exact ih fun other member => one other (List.mem_cons_of_mem _ member)

theorem keeps_mapM {items : List α} {each : α → AgentM β}
    (one : ∀ item, Keeps relation (each item)) : Keeps relation (items.mapM each) := by
  induction items with
  | nil => exact quiet.keeps_pure _
  | cons item rest ih =>
    rw [List.mapM_cons]
    exact quiet.keeps_bind (one item) fun _ => quiet.keeps_bind ih fun _ => quiet.keeps_pure _

theorem keeps_report (level : LogLevel) (message : String) :
    Keeps relation (report level message) :=
  fun agent => quiet.logged agent (⟨level, message⟩ :: agent.journal.log)

theorem keeps_reportNamed (level : LogLevel) (message : String) :
    Keeps relation (reportNamed level message) :=
  quiet.keeps_bind quiet.keeps_get fun _ => quiet.keeps_report _ _

theorem keeps_written (writable : Bool) : Keeps relation (written writable) :=
  quiet.keeps_ofExcept _

theorem keeps_freshNumber : Keeps relation freshNumber :=
  fun agent => quiet.renamed agent (agent.renamings + 1)

theorem keeps_first (search : Search) : Keeps relation (searching (·.first search)) := by
  intro agent
  obtain ⟨n, same⟩ := agent.beliefs.first_eq search
  show relation agent { agent with beliefs := (agent.beliefs.first search).2 }
  rw [same]
  exact quiet.searched agent n

theorem keeps_all (search : Search) : Keeps relation (searching (·.answers search)) := by
  intro agent
  obtain ⟨n, same⟩ := agent.beliefs.answers_eq search
  show relation agent { agent with beliefs := (agent.beliefs.answers search).2 }
  rw [same]
  exact quiet.searched agent n

theorem keeps_holds (formula : Formula) (θ : Substitution) : Keeps relation (holds formula θ) :=
  quiet.keeps_bind quiet.keeps_get fun _ => quiet.keeps_first _

theorem keeps_answers (formula : Formula) (θ : Substitution) :
    Keeps relation (answers formula θ) :=
  quiet.keeps_bind quiet.keeps_get fun _ => quiet.keeps_all _

theorem keeps_query (formula : Formula) : Keeps relation (query formula) :=
  quiet.keeps_bind (quiet.keeps_answers _ _) fun _ => quiet.keeps_pure _

theorem keeps_resolve (θ : Substitution) (term : Term) : Keeps relation (resolve θ term) :=
  quiet.keeps_ofExcept _

theorem keeps_displayed (θ : Substitution) (term : Term) : Keeps relation (displayed θ term) :=
  quiet.keeps_bind (quiet.keeps_resolve _ _) fun _ =>
    quiet.keeps_bind (quiet.keeps_written _) fun _ => quiet.keeps_pure _

theorem keeps_performMyName (arguments : List Term) (θ : Substitution) :
    Keeps relation (performMyName arguments θ) := by
  unfold performMyName
  split
  next => exact quiet.keeps_bind quiet.keeps_get fun _ => quiet.keeps_pure _
  next => exact quiet.keeps_throw _

theorem keeps_performCount (arguments : List Term) (θ : Substitution) :
    Keeps relation (performCount arguments θ) := by
  unfold performCount
  split
  next => exact quiet.keeps_bind (quiet.keeps_answers _ _) fun _ => quiet.keeps_pure _
  next => exact quiet.keeps_throw _

theorem keeps_performFindall (arguments : List Term) (θ : Substitution) :
    Keeps relation (performFindall arguments θ) := by
  unfold performFindall
  split
  next =>
    refine quiet.keeps_bind (quiet.keeps_answers _ _) fun _ => ?_
    refine quiet.keeps_bind (quiet.keeps_written _) fun _ => ?_
    exact quiet.keeps_bind (quiet.keeps_report _ _) fun _ => quiet.keeps_pure _
  next => exact quiet.keeps_throw _

theorem keeps_firstApplicable (literal : Term) (plans : List Plan) :
    Keeps relation (firstApplicable literal plans) := by
  induction plans with
  | nil => exact quiet.keeps_pure _
  | cons plan rest ih =>
    refine quiet.keeps_bind quiet.keeps_get fun agent => ?_
    dsimp only
    split
    next => exact ih
    next =>
      refine quiet.keeps_bind (quiet.keeps_holds _ _) fun found => ?_
      split
      next => exact ih
      next => exact quiet.keeps_pure _

theorem keeps_selectPlan (trigger : Trigger) (callerGoal : Option Term) :
    Keeps relation (selectPlan trigger callerGoal) := by
  refine quiet.keeps_bind quiet.keeps_freshNumber fun n => ?_
  refine quiet.keeps_bind quiet.keeps_get fun agent => ?_
  refine quiet.keeps_bind (quiet.keeps_firstApplicable _ _) fun found => ?_
  split
  next => exact quiet.keeps_pure _
  next =>
    refine quiet.keeps_bind (quiet.keeps_written _) fun _ => ?_
    exact quiet.keeps_bind (quiet.keeps_reportNamed _ _) fun _ => quiet.keeps_pure _

theorem keeps_executeAchieve (θ : Substitution) (goal : Term) :
    Keeps relation (executeAchieve θ goal) := by
  refine quiet.keeps_bind (quiet.keeps_resolve _ _) fun goal => ?_
  refine quiet.keeps_bind (quiet.keeps_selectPlan _ _) fun found => ?_
  split
  next => exact quiet.keeps_pure _
  next =>
    refine quiet.keeps_bind (quiet.keeps_written _) fun _ => ?_
    exact quiet.keeps_bind (quiet.keeps_reportNamed _ _) fun _ => quiet.keeps_pure _

theorem keeps_executeTest (θ : Substitution) (goal : Term) :
    Keeps relation (executeTest θ goal) := by
  refine quiet.keeps_bind quiet.keeps_get fun agent => ?_
  refine quiet.keeps_bind (quiet.keeps_first _) fun found => ?_
  split
  next => exact quiet.keeps_pure _
  next =>
    refine quiet.keeps_bind (quiet.keeps_resolve _ _) fun goal => ?_
    refine quiet.keeps_bind (quiet.keeps_selectPlan _ _) fun chosen => ?_
    split
    next => exact quiet.keeps_pure _
    next => exact quiet.keeps_pure _

theorem keeps_executeTestOfLoop (θ : Substitution) (condition : Formula) (body : List Statement)
    (fresh : List Variable) : Keeps relation (executeTestOfLoop θ condition body fresh) := by
  refine quiet.keeps_bind (quiet.keeps_holds _ _) fun found => ?_
  split
  next => exact quiet.keeps_pure _
  next => exact quiet.keeps_pure _

theorem keeps_unwind (frames : List Frame) : Keeps relation (unwind frames) := by
  induction frames with
  | nil => exact quiet.keeps_pure _
  | cons frame below ih =>
    rw [unwind]
    split
    next =>
      refine quiet.keeps_bind (quiet.keeps_selectPlan _ _) fun found => ?_
      split
      next => exact quiet.keeps_pure _
      next => exact ih
    next => exact ih

theorem keeps_fail (intention : Intention) (place reason : String) :
    Keeps relation (fail intention place reason) := by
  refine quiet.keeps_bind (quiet.keeps_reportNamed _ _) fun _ => ?_
  refine quiet.keeps_bind (quiet.keeps_unwind _) fun found => ?_
  split
  next => exact quiet.keeps_pure _
  next => exact quiet.keeps_bind (quiet.keeps_reportNamed _ _) fun _ => quiet.keeps_pure _

theorem keeps_failAt (intention : Intention) (task : Task) (reason : String) :
    Keeps relation (failAt intention task reason) :=
  quiet.keeps_bind (quiet.keeps_written _) fun _ => quiet.keeps_fail _ _ _

theorem keeps_reportUnhandled (event : Trigger) : Keeps relation (reportUnhandled event) := by
  refine quiet.keeps_bind (quiet.keeps_written _) fun _ => ?_
  split
  next => exact quiet.keeps_reportNamed _ _
  next => exact quiet.keeps_reportNamed _ _

theorem keeps_complete (intention : Intention) (finished : Frame) (below : List Frame) :
    Keeps relation (complete intention finished below) := by
  unfold complete
  split
  next =>
    refine quiet.keeps_bind quiet.keeps_freshNumber fun n => ?_
    refine quiet.keeps_bind quiet.keeps_get fun agent => ?_
    dsimp only
    split
    next => exact quiet.keeps_pure _
    next => exact quiet.keeps_bind (quiet.keeps_written _) fun _ => quiet.keeps_fail _ _ _
  next => exact quiet.keeps_pure _

end Deliberating

namespace Bookkeeping

variable (book : Bookkeeping relation)

include book

theorem keeps_record (change : Journal → Journal) : Keeps relation (record change) :=
  fun agent => book.noted agent agent.intentions (change agent.journal)

theorem keeps_print (text : String) : Keeps relation (print text) :=
  book.keeps_bind (book.keeps_record _) fun _ =>
    book.keeps_bind book.keeps_get fun _ => book.keeps_ofExcept _

theorem keeps_performBuiltin (name : String) (arguments : List Term) (θ : Substitution) :
    Keeps relation (performBuiltin name arguments θ) := by
  have printing : Keeps relation (performPrint arguments θ) :=
    book.keeps_bind (book.keeps_mapM fun _ => book.keeps_displayed _ _) fun _ =>
      book.keeps_bind (book.keeps_print _) fun _ => book.keeps_pure _
  unfold performBuiltin
  split
  next => exact printing
  next => exact printing
  next => exact book.keeps_pure _
  next => exact book.keeps_performMyName _ _
  next => exact book.keeps_performCount _ _
  next => exact book.keeps_performFindall _ _
  next => exact book.keeps_throw _

theorem keeps_performUser (name : String) (arguments : List Term) (θ : Substitution) :
    Keeps relation (performUser name arguments θ) := by
  refine book.keeps_bind book.keeps_get fun agent => ?_
  dsimp only
  split
  next => exact book.keeps_throw _
  next =>
    exact book.keeps_bind (book.keeps_mapM fun _ => book.keeps_resolve _ _) fun _ =>
      book.keeps_bind (book.keeps_record _) fun _ => book.keeps_ofExcept _

theorem keeps_perform (kind : ActionKind) (name : String) (arguments : List Term)
    (θ : Substitution) : Keeps relation (perform kind name arguments θ) := by
  cases kind with
  | builtin => exact book.keeps_performBuiltin name arguments θ
  | user => exact book.keeps_performUser name arguments θ

theorem keeps_begin (frame : Frame) : Keeps relation (begin frame) :=
  fun agent => book.noted agent (agent.intentions + 1) agent.journal

variable {θ : Substitution} {intention : Intention}

theorem keeps_execute (believing : Believing relation θ) (task : Task) :
    Keeps relation (execute θ task) := by
  cases task with
  | retest condition body fresh => exact book.keeps_executeTestOfLoop θ condition body fresh
  | statement step =>
    cases step with
    | achieve goal => exact book.keeps_executeAchieve θ goal
    | achieveLater goal =>
      exact book.keeps_bind (book.keeps_resolve _ _) fun _ =>
        book.keeps_bind (believing.achieved _) fun _ => book.keeps_pure _
    | test goal => exact book.keeps_executeTest θ goal
    | add literal =>
      exact book.keeps_bind (book.keeps_resolve _ _) fun _ =>
        book.keeps_bind (believing.added _) fun _ => book.keeps_pure _
    | remove literal => exact believing.removed literal
    | replace literal => exact believing.replaced literal
    | action kind name arguments =>
      exact book.keeps_bind (book.keeps_perform _ _ _ _) fun _ => book.keeps_pure _
    | constraint relation left right =>
      exact book.keeps_bind (book.keeps_holds _ _) fun _ => book.keeps_pure _
    | branch condition positive negative =>
      refine book.keeps_bind (book.keeps_holds _ _) fun found => ?_
      split
      next => exact book.keeps_pure _
      next => exact book.keeps_pure _
    | loop condition body => exact book.keeps_executeTestOfLoop θ condition body _

theorem keeps_attempt (believing : Believing relation θ) (task : Task) :
    Keeps relation (attempt θ task) := by
  refine book.keeps_tryCatch ?_ fun fault => ?_
  · exact book.keeps_bind (book.keeps_execute believing task) fun _ => book.keeps_pure _
  · split
    next => exact book.keeps_pure _
    next => exact book.keeps_throw _

/-- A step keeps a relation if the changes of belief under the bindings of its frame do. -/
theorem keeps_step (believing : ∀ frame ∈ intention.frames, Believing relation frame.bindings) :
    Keeps relation (step intention) := by
  unfold step
  split
  next => exact book.keeps_pure _
  next frame below frames =>
    split
    next => exact book.keeps_complete _ _ _
    next task tasks left =>
      refine book.keeps_bind book.keeps_get fun agent => ?_
      dsimp only
      split
      next => exact book.keeps_bind (book.keeps_written _) fun _ => book.keeps_failAt _ _ _
      next =>
        have own := believing frame (frames ▸ List.mem_cons_self)
        refine book.keeps_bind (book.keeps_attempt own task) fun outcome => ?_
        split
        next => exact book.keeps_failAt _ _ _
        next => exact book.keeps_failAt _ _ _
        next => exact book.keeps_pure _
        next => exact book.keeps_pure _

end Bookkeeping

/-- Relations that hold across every single change: beliefs may become what they will, and events
may be posted. -/
structure Encompassing (relation : Agent → Agent → Prop) : Prop extends Bookkeeping relation where
  believed : ∀ agent beliefs, relation agent { agent with beliefs }
  posted : ∀ event, Keeps relation (post event)

namespace Encompassing

variable (all : Encompassing relation)

include all

theorem keeps_revise (change : BeliefBase → BeliefBase.Revision α) :
    Keeps relation (revise change) := by
  refine all.keeps_bind all.keeps_get fun agent => ?_
  refine all.keeps_bind (fun agent => all.believed agent _) fun _ => ?_
  exact all.keeps_bind (all.keeps_forM fun _ _ => all.keeps_report _ _) fun _ =>
    all.keeps_ofExcept _

theorem keeps_addBelief (fact : Term) : Keeps relation (addBelief fact) := by
  refine all.keeps_bind (all.keeps_revise _) fun added => ?_
  dsimp only
  split
  next => exact all.keeps_bind (all.posted _) fun _ => all.keeps_pure _
  next => exact all.keeps_pure _

theorem keeps_removeBeliefs (pattern : Term) : Keeps relation (removeBeliefs pattern) := by
  refine all.keeps_bind all.keeps_get fun agent => ?_
  refine all.keeps_bind (all.keeps_revise _) fun removed => ?_
  exact all.keeps_bind (all.keeps_forM fun _ _ => all.posted _) fun _ => all.keeps_pure _

theorem keeps_executeRemove (θ : Substitution) (literal : Term) :
    Keeps relation (executeRemove θ literal) := by
  refine all.keeps_bind (all.keeps_resolve _ _) fun pattern => ?_
  refine all.keeps_bind all.keeps_get fun agent => ?_
  refine all.keeps_bind (all.keeps_revise _) fun removed => ?_
  split
  next => exact all.keeps_pure _
  next => exact all.keeps_bind (all.posted _) fun _ => all.keeps_pure _

theorem keeps_executeReplace (θ : Substitution) (literal : Term) :
    Keeps relation (executeReplace θ literal) := by
  refine all.keeps_bind (all.keeps_resolve _ _) fun fact => ?_
  refine all.keeps_bind all.keeps_get fun agent => ?_
  refine all.keeps_bind (all.keeps_revise _) fun removed => ?_
  refine all.keeps_bind (all.keeps_forM fun _ _ => all.posted _) fun _ => ?_
  dsimp only
  split
  next => exact all.keeps_pure _
  next => exact all.keeps_bind (all.posted _) fun _ => all.keeps_pure _

theorem believing (θ : Substitution) : Believing relation θ where
  achieved goal := all.posted (.goal goal)
  added := all.keeps_addBelief
  removed := all.keeps_executeRemove θ
  replaced := all.keeps_executeReplace θ

theorem keeps_runFor (fuel : Nat) (intention : Intention) :
    Keeps relation (runFor fuel intention) := by
  induction fuel generalizing intention with
  | zero => exact all.keeps_pure _
  | succ fuel ih =>
    rw [runFor]
    split
    next => exact all.keeps_pure _
    next =>
      have stepped : Keeps relation (step intention) :=
        all.keeps_step fun frame _ => all.believing frame.bindings
      refine all.keeps_bind stepped fun turn => ?_
      obtain ⟨live, next⟩ := turn
      cases live with
      | true => exact ih next
      | false => exact all.keeps_pure _

theorem keeps_handle (event : Trigger) : Keeps relation (handle event) := by
  refine all.keeps_bind (all.keeps_selectPlan event none) fun found => ?_
  split
  next => exact all.keeps_bind (all.keeps_reportUnhandled event) fun _ => all.keeps_pure _
  next frame =>
    refine all.keeps_bind (all.keeps_begin frame) fun intention => ?_
    exact all.keeps_bind all.keeps_get fun agent => all.keeps_runFor _ intention

theorem keeps_perform_request (request : Request) : Keeps relation request.perform := by
  cases request with
  | add fact => exact all.keeps_bind (all.keeps_addBelief fact) fun _ => all.keeps_pure _
  | remove pattern =>
    exact all.keeps_bind (all.keeps_removeBeliefs pattern) fun _ => all.keeps_pure _
  | achieve goal => exact all.posted _
  | query formula => exact all.keeps_bind (all.keeps_query formula) fun _ => all.keeps_pure _

theorem keeps_load (program : Program) : Keeps relation (load program) := by
  refine all.keeps_bind (fun agent => all.believed agent _) fun _ => ?_
  refine all.keeps_bind (all.keeps_forM fun fact _ => ?_) fun _ => ?_
  · exact all.keeps_bind (all.keeps_addBelief fact) fun _ => all.keeps_pure _
  · exact all.keeps_forM fun goal _ => all.posted _

end Encompassing

/-- The limits, the plans, the actions and the output stream of an agent are the same. -/
structure SameSetup (before after : Agent) : Prop where
  limits : after.limits = before.limits
  plans : after.plans = before.plans
  actions : after.actions = before.actions
  stream : after.stream = before.stream

/-- What an agent does leaves its limits, its plans, its actions and its output stream as they are. -/
theorem encompassing_sameSetup : Encompassing SameSetup where
  refl _ := ⟨rfl, rfl, rfl, rfl⟩
  trans first second := ⟨second.limits.trans first.limits, second.plans.trans first.plans,
    second.actions.trans first.actions, second.stream.trans first.stream⟩
  noted _ _ _ := ⟨rfl, rfl, rfl, rfl⟩
  renamed _ _ := ⟨rfl, rfl, rfl, rfl⟩
  searched _ _ := ⟨rfl, rfl, rfl, rfl⟩
  believed _ _ := ⟨rfl, rfl, rfl, rfl⟩
  posted event agent := by
    obtain ⟨log, ran⟩ := run_post event agent
    rw [leaves, ran]
    split <;> exact ⟨rfl, rfl, rfl, rfl⟩

theorem bookkeeping_sameSetup : Bookkeeping SameSetup :=
  encompassing_sameSetup.toBookkeeping

theorem believing_sameSetup (θ : Substitution) : Believing SameSetup θ :=
  encompassing_sameSetup.believing θ

theorem keepsSetup_attempt (θ : Substitution) (task : Task) : Keeps SameSetup (attempt θ task) :=
  bookkeeping_sameSetup.keeps_attempt (believing_sameSetup θ) task

theorem sameSetup_step {agent after : Agent} {intention : Intention}
    {outcome : Except Fault (Bool × Intention)}
    (ran : (step intention).run.run agent = (outcome, after)) : SameSetup agent after := by
  have believing : ∀ frame ∈ intention.frames, Believing SameSetup frame.bindings :=
    fun frame _ => believing_sameSetup frame.bindings
  have kept := bookkeeping_sameSetup.keeps_step believing agent
  rwa [leaves, ran] at kept

end Agent

end AgentSpeak
