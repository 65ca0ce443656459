import AgentSpeak.Proofs.Agent.Naming
import AgentSpeak.Proofs.Beliefs.Varying
import AgentSpeak.Proofs.Program.Renaming

namespace AgentSpeak

variable {texts : Prop} {π ρ : Variable → Variable}

namespace Plan

/-- The second plan is the first one with other names. -/
def Varies (plan other : Plan) : Prop :=
  ∃ names : Correspondence False, names.IsWritten ∧ (∀ v ∈ plan.vars, names.knows v) ∧
    other = plan.rename names.name

theorem varies_self {plan : Plan} (written : ∀ v ∈ plan.vars, v.IsWritten) : plan.Varies plan :=
  ⟨.same False Variable.IsWritten, ⟨id, id⟩, written, plan.rename_id.symm⟩

end Plan

/-- The second event is the first one with other names. -/
def Trigger.Varies (trigger other : Trigger) : Prop :=
  ∃ names : Correspondence False, trigger.literal.Over names.knows ∧
    other = trigger.rename names.name

theorem Trigger.Varies.isWritable {trigger other : Trigger} (event : trigger.Varies other) :
    other.isWritable = trigger.isWritable := by
  obtain ⟨names, -, rfl⟩ := event
  exact trigger.isWritable_rename _

theorem Trigger.varies_self (trigger : Trigger) : trigger.Varies trigger := by
  refine ⟨.same False fun _ => True, fun _ _ => trivial, ?_⟩
  show trigger = { trigger with literal := trigger.literal.rename id }
  rw [Term.rename_id]

/-- A task with other names for its variables. -/
def Task.rename (π : Variable → Variable) : Task → Task
  | .statement step => .statement (step.rename π)
  | .retest condition body fresh =>
      .retest (condition.rename π) (body.map (Statement.rename π)) (fresh.map π)

@[simp] theorem Task.isWritable_rename (π : Variable → Variable) (task : Task) :
    (task.rename π).isWritable = task.isWritable := by
  cases task with
  | statement step => exact step.isWritable_rename π
  | retest condition body fresh =>
    have loop := (Statement.loop condition body).isWritable_rename π
    rwa [Statement.rename, Statement.renameAll_eq_map] at loop

theorem Task.rename_congr {task : Task} (same : ∀ v ∈ task.vars, π v = ρ v) :
    task.rename π = task.rename ρ := by
  cases task with
  | statement step => exact congrArg _ (step.rename_congr same)
  | retest condition body fresh =>
    obtain ⟨front, last⟩ := List.forall_mem_append.mp same
    obtain ⟨first, second⟩ := List.forall_mem_append.mp front
    rw [rename, rename, ← Statement.renameAll_eq_map, ← Statement.renameAll_eq_map,
      Formula.rename_congr first, Statement.renameAll_congr body second, List.map_congr_left last]

namespace Correspondence

variable (names : Correspondence texts)

/-- Corresponding literals make corresponding events. -/
theorem Terms.event {names : Correspondence False} {literal literal' : Term}
    (terms : names.Terms literal literal') (change : Change) (subject : Subject) :
    (Trigger.mk change subject literal).Varies ⟨change, subject, literal'⟩ :=
  ⟨names, terms.known, congrArg (Trigger.mk change subject) terms.same⟩

theorem Terms.isWritable {names : Correspondence texts} {term term' : Term}
    (terms : names.Terms term term') : term'.isWritable = term.isWritable := by
  rw [terms.same, Term.isWritable_rename]

/-- The second formula is the first one with the other names. -/
structure Formulas (formula formula' : Formula) : Prop where
  known : formula.Over names.knows
  same : formula' = formula.rename names.name

structure Tasks (task task' : Task) : Prop where
  known : ∀ v ∈ task.vars, names.knows v
  same : task' = task.rename names.name

variable {names} {later earlier : Correspondence texts}

theorem Extends.formulas {formula formula' : Formula} (wider : later.Extends earlier)
    (own : earlier.Formulas formula formula') : later.Formulas formula formula' :=
  ⟨fun v member => wider.knows (own.known v member), own.same.trans
    (Formula.rename_congr fun v member => (wider.name (own.known v member)).symm)⟩

theorem Tasks.isWritable {task task' : Task} (tasks : names.Tasks task task') :
    task'.isWritable = task.isWritable := by
  rw [tasks.same, Task.isWritable_rename]

theorem Extends.tasks {task task' : Task} (wider : later.Extends earlier)
    (own : earlier.Tasks task task') : later.Tasks task task' :=
  ⟨fun v member => wider.knows (own.known v member), own.same.trans
    (Task.rename_congr fun v member => (wider.name (own.known v member)).symm)⟩

theorem Extends.allTasks {tasks tasks' : List Task} (wider : later.Extends earlier)
    (own : List.Forall₂ earlier.Tasks tasks tasks') : List.Forall₂ later.Tasks tasks tasks' :=
  own.imp fun _ _ => wider.tasks

/-- The statements of a body are tasks with the other names. -/
theorem tasks_ofStatements {body : List Statement}
    (known : ∀ v ∈ Statement.varsAll body, names.knows v) :
    List.Forall₂ names.Tasks (Task.ofStatements body)
      (Task.ofStatements (body.map (Statement.rename names.name))) := by
  induction body with
  | nil => exact .nil
  | cons statement rest ih =>
    obtain ⟨first, others⟩ := List.forall_mem_append.mp known
    exact .cons ⟨first, rfl⟩ (ih others)

end Correspondence

end AgentSpeak
