import AgentSpeak.Proofs.Agent.Execution
import AgentSpeak.Proofs.Variants.Action
import AgentSpeak.Proofs.Variants.Selection

namespace AgentSpeak

namespace Correspondence

variable {texts : Prop} {names : Correspondence texts} {θ θ' : Substitution}

/-- The variables of a loop that have no value correspond. -/
theorem fresh_name (bindings : names.Bindings θ θ') {loop : Statement}
    (known : ∀ v ∈ loop.vars, names.knows v) :
    Agent.freshVariables θ' (loop.rename names.name) =
        (Agent.freshVariables θ loop).map names.name ∧
      ∀ v ∈ Agent.freshVariables θ loop, names.knows v := by
  unfold Agent.freshVariables
  rw [Statement.vars_rename, bindings.same, List.filterMap_map, List.map_filterMap]
  constructor
  · refine List.filterMap_congr fun v member => ?_
    have walked := names.walk_name (Term.over_var.mpr (known v member)) bindings.inside
    rw [Term.rename_var] at walked
    rw [Function.comp_apply, walked]
    cases θ.walk (.var v) <;> simp
  · intro w member
    obtain ⟨v, inside, walked⟩ := List.mem_filterMap.mp member
    split at walked
    next free found =>
      cases walked
      exact Term.over_var.mp
        (found ▸ bindings.inside.over.walk (Term.over_var.mpr (known v inside)))
    next => cases walked

end Correspondence

namespace Agent

/-- Two frames go on in the same way. -/
inductive Effect.Varies (stage : Stage False) (after after' : Agent) : Effect → Effect → Prop where
  | failed : Varies stage after after' .failed .failed
  | proceeded (later : Stage False) (leads : stage.Leads later) (serves : later.Serves after after')
      (bindings : later.Bindings θ θ') (tasks : List.Forall₂ later.Tasks inserted inserted') :
      Varies stage after after' (.proceeded θ inserted) (.proceeded θ' inserted')
  | called (asked : stage.Terms goal goal')
      (opened : Opened (some goal) (some goal') callee callee' after after') :
      Varies stage after after' (.called callee) (.called callee')

/-- Two computations of an effect on frames that correspond at a stage. -/
abbrev Execute (stage : Stage False) (agent other : Agent)
    (computation computation' : AgentM Effect) : Prop :=
  Together agent other computation computation' fun effect effect' after after' =>
    effect.Varies stage after after' effect'

variable {agent other : Agent} {stage : Stage False} {θ θ' : Substitution} {term term' : Term}

/-- A frame goes on with the bindings that it has. -/
theorem Effect.varies_same {after after' : Agent} (serves : stage.Serves after after')
    (bindings : stage.Bindings θ θ') :
    Effect.Varies stage after after' (.proceeded θ []) (.proceeded θ' []) :=
  .proceeded stage (.refl stage) serves bindings .nil

section

variable (varies : agent.Varies other) (serves : stage.Serves agent other)
  (bindings : stage.Bindings θ θ')

include varies serves bindings

theorem execute_achieve (goals : stage.Terms term term') :
    Execute stage agent other (executeAchieve θ term) (executeAchieve θ' term') := by
  refine (together_resolve varies goals bindings).bind fun goal goal' _ _ _ varies own => ?_
  obtain ⟨rfl, rfl, resolved⟩ := own
  refine (together_selectPlan varies (resolved.event _ _) _ _).bind
    fun found found' _ _ _ varies chosen => ?_
  cases chosen with
  | none =>
    refine .written varies resolved.isWritable ?_
    refine (together_reportNamed varies _ _ _ _).bind fun _ _ _ _ _ varies _ => ?_
    exact together_pure varies .failed
  | some opened => exact together_pure varies (.called resolved opened)

theorem execute_test (goals : stage.Terms term term') :
    Execute stage agent other (executeTest θ term) (executeTest θ' term') := by
  have vary : (Search.query agent.limits term θ).Varies stage
      (Search.query other.limits term' θ') := by
    rw [goals.same, bindings.same, varies.limits]
    exact Search.varies_query _ goals.known bindings.inside
  refine .get ((together_first varies serves vary).bind
    fun found found' after after' onwards varies own => ?_)
  obtain ⟨later, leads, laterServes, related⟩ := own
  cases related with
  | some answers =>
    exact together_pure varies (.proceeded later leads laterServes answers .nil)
  | none =>
    refine (together_resolve varies goals bindings).bind fun goal goal' _ _ _ varies own => ?_
    obtain ⟨rfl, rfl, resolved⟩ := own
    refine (together_selectPlan varies (resolved.event _ _) _ _).bind
      fun found found' _ _ _ varies chosen => ?_
    cases chosen with
    | none => exact together_pure varies .failed
    | some opened => exact together_pure varies (.called resolved opened)

theorem execute_remove (literals : stage.Terms term term') :
    Execute stage agent other (executeRemove θ term) (executeRemove θ' term') := by
  refine (together_resolve varies literals bindings).bind
    fun pattern pattern' agent other _ varies own => ?_
  obtain ⟨rfl, rfl, patterns⟩ := own
  refine .get ?_
  have removed := BeliefBase.removing_name stage.toCorrespondence varies.beliefs.groups
    varies.beliefs.ordered agent.limits.occursCheck patterns.known bindings.inside
  rw [← patterns.same, ← bindings.same] at removed
  rw [varies.limits]
  refine (together_revise varies (varies.beliefs.ordered.removing ..) removed).bind
    fun found found' after after' one varies own => ?_
  cases own with
  | none => exact together_pure varies (Effect.varies_same (serves.after one) bindings)
  | some extended =>
    have posted := Correspondence.terms_apply patterns extended
    refine (together_post varies (posted.event _ _)).bind fun _ _ last last' two varies _ => ?_
    exact together_pure varies (Effect.varies_same (serves.after (one.trans two)) extended)

theorem execute_replace (literals : stage.Terms term term') :
    Execute stage agent other (executeReplace θ term) (executeReplace θ' term') := by
  refine (together_resolve varies literals bindings).bind
    fun fact fact' agent other _ varies own => ?_
  obtain ⟨rfl, rfl, facts⟩ := own
  refine .get ?_
  have replaced := BeliefBase.replacing_rename varies.beliefs.groups stage.name
    agent.limits.occursCheck fact
  rw [← facts.same] at replaced
  rw [varies.limits]
  refine (together_revise varies (varies.beliefs.ordered.replacing ..) replaced).bind
    fun removed removed' second second' one varies' own => ?_
  obtain ⟨ground, rfl⟩ := own
  obtain rfl : fact' = fact := facts.same.trans (Term.bind_of_isGround ground _)
  refine (together_forM varies' fun old _ _ _ varies =>
    together_post varies (Trigger.varies_self _)).bind fun _ _ third third' two varies _ => ?_
  have grown := one.trans two
  dsimp only
  split
  next => exact together_pure varies (Effect.varies_same (serves.after grown) bindings)
  next =>
    refine (together_post varies (Trigger.varies_self _)).bind fun _ _ _ _ more varies _ => ?_
    exact together_pure varies (Effect.varies_same (serves.after (grown.trans more)) bindings)

theorem execute_testOfLoop {condition : Formula} {body : List Statement} {fresh : List Variable}
    (known : ∀ v ∈ (Task.retest condition body fresh).vars, stage.knows v) :
    Execute stage agent other (executeTestOfLoop θ condition body fresh)
      (executeTestOfLoop θ' (condition.rename stage.name) (body.map (Statement.rename stage.name))
        (fresh.map stage.name)) := by
  obtain ⟨front, freshKnown⟩ := List.forall_mem_append.mp known
  obtain ⟨conditionOver, bodyOver⟩ := List.forall_mem_append.mp front
  have entered := stage.without_related bindings freshKnown
  refine (together_holds varies serves ⟨conditionOver, rfl⟩ entered).bind
    fun found found' after after' onwards varies own => ?_
  obtain ⟨later, leads, laterServes, related⟩ := own
  cases related with
  | none => exact together_pure varies (Effect.varies_same (serves.after onwards) entered)
  | some answers =>
    refine together_pure varies (.proceeded later leads laterServes answers ?_)
    refine leads.keeps.allTasks (List.rel_append (Correspondence.tasks_ofStatements bodyOver) ?_)
    exact .cons ⟨known, rfl⟩ .nil

omit varies serves bindings in
theorem execute_bindings {computation computation' : AgentM (Option Substitution)}
    (finds : Together agent other computation computation' (Finds stage)) :
    Execute stage agent other (do return .ofBindings (← computation))
      (do return .ofBindings (← computation')) := by
  refine Together.bind finds fun found found' after after' _ varies own => ?_
  obtain ⟨later, leads, laterServes, related⟩ := own
  refine together_pure varies ?_
  cases related with
  | none => exact .failed
  | some answers => exact .proceeded later leads laterServes answers .nil

theorem execute_branch {condition : Formula} {positive negative : List Statement}
    (known : ∀ v ∈ (Statement.branch condition positive negative).vars, stage.knows v) :
    Execute stage agent other (execute θ (.statement (.branch condition positive negative)))
      (execute θ' (.statement ((Statement.branch condition positive negative).rename
        stage.name))) := by
  obtain ⟨front, negativeOver⟩ := List.forall_mem_append.mp known
  obtain ⟨conditionOver, positiveOver⟩ := List.forall_mem_append.mp front
  rw [Statement.rename, Statement.renameAll_eq_map, Statement.renameAll_eq_map]
  refine (together_holds varies serves ⟨conditionOver, rfl⟩ bindings).bind
    fun found found' after after' onwards varies own => ?_
  obtain ⟨later, leads, laterServes, related⟩ := own
  cases related with
  | none =>
    exact together_pure varies (.proceeded stage (.refl stage) (serves.after onwards) bindings
      (Correspondence.tasks_ofStatements negativeOver))
  | some answers =>
    exact together_pure varies (.proceeded later leads laterServes answers
      (leads.keeps.allTasks (Correspondence.tasks_ofStatements positiveOver)))

/-- Corresponding tasks have corresponding effects on corresponding frames. -/
theorem together_execute {task task' : Task} (tasks : stage.Tasks task task') :
    Execute stage agent other (execute θ task) (execute θ' task') := by
  obtain ⟨known, rfl⟩ := tasks
  cases task with
  | retest condition body fresh => exact execute_testOfLoop varies serves bindings known
  | statement step =>
    cases step with
    | achieve goal => exact execute_achieve varies serves bindings ⟨known, rfl⟩
    | achieveLater goal =>
      refine (together_resolve varies ⟨known, rfl⟩ bindings).bind fun _ _ _ _ _ varies own => ?_
      obtain ⟨rfl, rfl, goals⟩ := own
      refine (together_post varies (goals.event _ _)).bind fun _ _ _ _ onwards varies _ => ?_
      exact together_pure varies (Effect.varies_same (serves.after onwards) bindings)
    | test goal => exact execute_test varies serves bindings ⟨known, rfl⟩
    | add literal =>
      refine (together_resolve varies ⟨known, rfl⟩ bindings).bind fun _ _ _ _ _ varies own => ?_
      obtain ⟨rfl, rfl, facts⟩ := own
      refine (together_addBelief varies facts).bind fun _ _ _ _ onwards varies _ => ?_
      exact together_pure varies (Effect.varies_same (serves.after onwards) bindings)
    | remove literal => exact execute_remove varies serves bindings ⟨known, rfl⟩
    | replace literal => exact execute_replace varies serves bindings ⟨known, rfl⟩
    | action kind name arguments =>
      refine execute_bindings (together_perform varies serves ?_ bindings kind name)
      refine List.forall₂_map_right_iff.mpr (List.forall₂_same.mpr fun argument member => ?_)
      refine ⟨fun v occurs => known v ?_, rfl⟩
      show v ∈ Term.varsAll arguments
      rw [Term.varsAll_eq_flatMap]
      exact List.mem_flatMap.mpr ⟨argument, member, occurs⟩
    | constraint relation left right =>
      exact execute_bindings (together_holds varies serves ⟨known, rfl⟩ bindings)
    | branch condition positive negative => exact execute_branch varies serves bindings known
    | loop condition body =>
      obtain ⟨same, freshKnown⟩ := stage.fresh_name bindings known
      have all : ∀ v ∈ (Task.retest condition body
          (freshVariables θ (.loop condition body))).vars, stage.knows v :=
        List.forall_mem_append.mpr ⟨known, freshKnown⟩
      have run := execute_testOfLoop varies serves bindings all
      rw [← same, Statement.rename, Statement.renameAll_eq_map] at run
      rw [Task.rename, Statement.rename, Statement.renameAll_eq_map]
      exact run

end

end Agent

end AgentSpeak
