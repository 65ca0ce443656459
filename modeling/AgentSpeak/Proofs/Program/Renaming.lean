import AgentSpeak.Program.Parser
import AgentSpeak.Proofs.Formula.Legible
import AgentSpeak.Proofs.Term.Numbering
import AgentSpeak.Proofs.Term.Renaming
import Mathlib.Data.List.Perm.Basic

namespace AgentSpeak

/-- The variables of a rule. -/
def Rule.vars (rule : Rule) : List Variable :=
  rule.head.vars ++ rule.body.vars

/-- The variables of a plan. -/
def Plan.vars (plan : Plan) : List Variable :=
  plan.trigger.literal.vars ++ plan.context.vars ++ Statement.varsAll plan.body ++
    (plan.label.elim [] Term.vars)

/-- The variables of a clause, in the order of its text: the label of a plan comes first. -/
def Clause.vars : Clause → List Variable
  | .belief fact => fact.vars
  | .rule defined => defined.vars
  | .goal literal => literal.vars
  | .plan defined => defined.label.elim [] Term.vars ++ defined.trigger.literal.vars ++
      defined.context.vars ++ Statement.varsAll defined.body

/-- The variables of a program: of its beliefs, rules, goals and plans. -/
def Program.vars (program : Program) : List Variable :=
  program.beliefs.flatMap Term.vars ++ program.rules.flatMap Rule.vars ++
    program.goals.flatMap Term.vars ++ program.plans.flatMap Plan.vars

/-- Clauses have the variables of the program that they make up, each as often. -/
theorem Program.vars_ofClauses_perm (clauses : List Clause) :
    (ofClauses clauses).vars.Perm (clauses.flatMap Clause.vars) := by
  rw [List.perm_iff_count]
  intro v
  induction clauses with
  | nil => rfl
  | cons clause rest ih =>
    rw [List.flatMap_cons, List.count_append, ← ih]
    cases clause <;>
      simp [ofClauses, vars, Clause.vars, Plan.vars, List.filterMap_cons, Clause.belief?,
        Clause.rule?, Clause.goal?, Clause.plan?] <;>
      omega

theorem Statement.varsAll_eq_flatMap (body : List Statement) : varsAll body = body.flatMap vars := by
  induction body with
  | nil => rfl
  | cons statement rest ih => rw [varsAll, ih, List.flatMap_cons]

theorem Statement.varsAll_append (first second : List Statement) :
    varsAll (first ++ second) = varsAll first ++ varsAll second := by
  rw [varsAll_eq_flatMap, varsAll_eq_flatMap, varsAll_eq_flatMap, List.flatMap_append]

variable {π ρ : Variable → Variable}

namespace Term

theorem isGround_rename (π : Variable → Variable) (term : Term) :
    (term.rename π).isGround = term.isGround := by
  rw [Bool.eq_iff_iff, isGround_iff, isGround_iff, vars_rename, List.map_eq_nil_iff]

theorem literalParts_rename (π : Variable → Variable) (term : Term) :
    (term.rename π).literalParts =
      (term.literalParts.1, term.literalParts.2.map (rename π)) := by
  cases term <;> simp [literalParts]

theorem varsAll_rename (π : Variable → Variable) (terms : List Term) :
    varsAll (terms.map (rename π)) = (varsAll terms).map π := by
  simp only [varsAll_eq_flatMap, List.flatMap_map, List.map_flatMap, vars_rename]

end Term

@[simp] theorem Formula.isWritable_rename (π : Variable → Variable) (formula : Formula) :
    (formula.rename π).isWritable = formula.isWritable := by
  induction formula with
  | literal term => exact Term.isWritable_rename π term
  | negation formula ih => exact ih
  | conjunction left right ih ih' | disjunction left right ih ih' => exact congrArg₂ and ih ih'
  | comparison relation left right =>
    exact congrArg₂ and (Term.isWritable_rename π left) (Term.isWritable_rename π right)

def Trigger.rename (π : Variable → Variable) (trigger : Trigger) : Trigger :=
  { trigger with literal := trigger.literal.rename π }

@[simp] theorem Trigger.isWritable_rename (π : Variable → Variable) (trigger : Trigger) :
    (trigger.rename π).isWritable = trigger.isWritable :=
  Term.isWritable_rename π trigger.literal

namespace Statement

mutual

/-- A statement with other names for its variables. -/
def rename (π : Variable → Variable) : Statement → Statement
  | .achieve goal => .achieve (goal.rename π)
  | .achieveLater goal => .achieveLater (goal.rename π)
  | .test goal => .test (goal.rename π)
  | .add literal => .add (literal.rename π)
  | .remove literal => .remove (literal.rename π)
  | .replace literal => .replace (literal.rename π)
  | .action kind name arguments => .action kind name (arguments.map (Term.rename π))
  | .constraint relation left right => .constraint relation (left.rename π) (right.rename π)
  | .branch condition positive negative =>
      .branch (condition.rename π) (renameAll π positive) (renameAll π negative)
  | .loop condition body => .loop (condition.rename π) (renameAll π body)

def renameAll (π : Variable → Variable) : List Statement → List Statement
  | [] => []
  | statement :: rest => rename π statement :: renameAll π rest

end

theorem renameAll_eq_map (π : Variable → Variable) (body : List Statement) :
    renameAll π body = body.map (rename π) := by
  induction body with
  | nil => rfl
  | cons statement rest ih => rw [renameAll, ih, List.map_cons]

theorem ofLiteral_rename (kind : ActionKind) (π : Variable → Variable) (literal : Term) :
    ofLiteral kind (literal.rename π) = (ofLiteral kind literal).rename π := by
  rw [ofLiteral, Term.literalParts_rename]
  rfl

/-- Other names change no statement into one of another kind. -/
theorem endsWithBrace_rename (π : Variable → Variable) (statement : Option Statement) :
    endsWithBrace (statement.map (rename π)) = endsWithBrace statement := by
  rcases statement with _ | statement
  · rfl
  · cases statement <;> rfl

mutual

theorem rename_id : (statement : Statement) → statement.rename id = statement
  | .achieve term | .achieveLater term | .test term | .add term | .remove term | .replace term =>
    congrArg _ term.rename_id
  | .action kind name arguments =>
    congrArg (action kind name) (List.map_id'' Term.rename_id arguments)
  | .constraint relation left right =>
    congrArg₂ (constraint relation) left.rename_id right.rename_id
  | .branch condition positive negative => by
    rw [rename, Formula.rename_id, renameAll_id positive, renameAll_id negative]
  | .loop condition body => by rw [rename, Formula.rename_id, renameAll_id body]

theorem renameAll_id : (body : List Statement) → renameAll id body = body
  | [] => rfl
  | statement :: rest => by rw [renameAll, rename_id statement, renameAll_id rest]

end

mutual

theorem vars_rename (π : Variable → Variable) :
    (statement : Statement) → (statement.rename π).vars = statement.vars.map π
  | .achieve goal | .achieveLater goal | .test goal => Term.vars_rename π goal
  | .add literal | .remove literal | .replace literal => Term.vars_rename π literal
  | .action _ _ arguments => Term.varsAll_rename π arguments
  | .constraint _ left right => by
    rw [rename, vars, vars, Term.vars_rename, Term.vars_rename, List.map_append]
  | .branch condition positive negative => by
    rw [rename, vars, vars, Formula.vars_rename, varsAll_renameAll π positive,
      varsAll_renameAll π negative, List.map_append, List.map_append]
  | .loop condition body => by
    rw [rename, vars, vars, Formula.vars_rename, varsAll_renameAll π body, List.map_append]

theorem varsAll_renameAll (π : Variable → Variable) :
    (body : List Statement) → varsAll (renameAll π body) = (varsAll body).map π
  | [] => rfl
  | statement :: rest => by
    rw [renameAll, varsAll, varsAll, vars_rename π statement, varsAll_renameAll π rest,
      List.map_append]

end

mutual

theorem rename_congr : (statement : Statement) → (∀ v ∈ statement.vars, π v = ρ v) →
    statement.rename π = statement.rename ρ
  | .achieve _, same | .achieveLater _, same | .test _, same | .add _, same | .remove _, same
  | .replace _, same => congrArg _ (Term.rename_congr same)
  | .action kind name arguments, same => by
    refine congrArg (action kind name) (List.map_congr_left fun argument member => ?_)
    refine Term.rename_congr fun v occurs => same v ?_
    rw [vars, Term.varsAll_eq_flatMap]
    exact List.mem_flatMap.mpr ⟨argument, member, occurs⟩
  | .constraint relation left right, same => by
    obtain ⟨first, second⟩ := List.forall_mem_append.mp same
    exact congrArg₂ (constraint relation) (Term.rename_congr first) (Term.rename_congr second)
  | .branch condition positive negative, same => by
    obtain ⟨front, last⟩ := List.forall_mem_append.mp same
    obtain ⟨first, second⟩ := List.forall_mem_append.mp front
    rw [rename, rename, Formula.rename_congr first, renameAll_congr positive second,
      renameAll_congr negative last]
  | .loop condition body, same => by
    obtain ⟨first, second⟩ := List.forall_mem_append.mp same
    rw [rename, rename, Formula.rename_congr first, renameAll_congr body second]

theorem renameAll_congr : (body : List Statement) → (∀ v ∈ varsAll body, π v = ρ v) →
    renameAll π body = renameAll ρ body
  | [], _ => rfl
  | statement :: rest, same => by
    obtain ⟨first, others⟩ := List.forall_mem_append.mp same
    rw [renameAll, renameAll, rename_congr statement first, renameAll_congr rest others]

end

mutual

@[simp] theorem isWritable_rename (π : Variable → Variable) :
    (statement : Statement) → (statement.rename π).isWritable = statement.isWritable
  | .achieve term | .achieveLater term | .test term | .add term | .remove term | .replace term =>
    Term.isWritable_rename π term
  | .action kind name arguments => by
    rw [rename, isWritable, isWritable, Term.isWritableAll_eq_all, Term.isWritableAll_eq_all,
      List.all_map]
    exact congrArg arguments.all (funext (Term.isWritable_rename π))
  | .constraint _ left right =>
    congrArg₂ and (Term.isWritable_rename π left) (Term.isWritable_rename π right)
  | .branch condition positive negative => by
    rw [rename, isWritable, isWritable, Formula.isWritable_rename, isWritableAll_renameAll π positive,
      isWritableAll_renameAll π negative]
  | .loop condition body => by
    rw [rename, isWritable, isWritable, Formula.isWritable_rename, isWritableAll_renameAll π body]

theorem isWritableAll_renameAll (π : Variable → Variable) :
    (body : List Statement) → isWritableAll (renameAll π body) = isWritableAll body
  | [] => rfl
  | statement :: rest =>
    congrArg₂ and (isWritable_rename π statement) (isWritableAll_renameAll π rest)

end

theorem parseMore_rename (π : Variable → Variable) (first : Option Statement) :
    parseMore (first.map (rename π)) = parseMore first := by
  rw [parseMore, parseMore, endsWithBrace_rename]

end Statement

instance : Renames Formula where
  vars := Formula.vars
  rename := Formula.rename
  rename_congr := Formula.rename_congr
  vars_rename := Formula.vars_rename

instance : Renames Statement where
  vars := Statement.vars
  rename := Statement.rename
  rename_congr := Statement.rename_congr _
  vars_rename := Statement.vars_rename

theorem Variable.renumber_zero : Variable.renumber (· + 0) = id := by
  funext v
  cases found : v.number? with
  | none => exact renumber_of_none found _
  | some n => rw [eq_wildcard_of_number? found, renumber_wildcard, Nat.add_zero, id_eq]

def Rule.rename (π : Variable → Variable) (rule : Rule) : Rule :=
  ⟨rule.head.rename π, rule.body.rename π⟩

namespace Plan

def rename (π : Variable → Variable) (plan : Plan) : Plan where
  trigger := plan.trigger.rename π
  context := plan.context.rename π
  body := plan.body.map (Statement.rename π)
  label := plan.label.map (Term.rename π)

@[simp] theorem isTitleWritable_rename (π : Variable → Variable) (plan : Plan) :
    (plan.rename π).isTitleWritable = plan.isTitleWritable := by
  obtain ⟨trigger, condition, statements, name⟩ := plan
  cases name with
  | none => exact trigger.isWritable_rename π
  | some label => exact label.isWritable_rename π

theorem rename_id (plan : Plan) : plan.rename id = plan := by
  obtain ⟨trigger, condition, statements, name⟩ := plan
  have sameLabel : name.map (Term.rename id) = name := by
    cases name with
    | none => rfl
    | some term => exact congrArg some term.rename_id
  have sameBody : statements.map (Statement.rename id) = statements :=
    List.map_id'' Statement.rename_id statements
  simp only [rename, Trigger.rename, Term.rename_id, Formula.rename_id, sameBody, sameLabel]

theorem rename_congr {plan : Plan} (same : ∀ v ∈ plan.vars, π v = ρ v) :
    plan.rename π = plan.rename ρ := by
  obtain ⟨front, label⟩ := List.forall_mem_append.mp same
  obtain ⟨middle, body⟩ := List.forall_mem_append.mp front
  obtain ⟨literal, context⟩ := List.forall_mem_append.mp middle
  obtain ⟨trigger, condition, statements, name⟩ := plan
  have sameBody : statements.map (Statement.rename π) = statements.map (Statement.rename ρ) := by
    rw [← Statement.renameAll_eq_map, ← Statement.renameAll_eq_map]
    exact Statement.renameAll_congr statements body
  have sameLabel : name.map (Term.rename π) = name.map (Term.rename ρ) := by
    cases name with
    | none => rfl
    | some term => exact congrArg some (Term.rename_congr label)
  simp only [rename, Trigger.rename, Term.rename_congr literal, Formula.rename_congr context,
    sameBody, sameLabel]

end Plan

namespace Clause

/-- A clause with other names for its variables. -/
def rename (π : Variable → Variable) : Clause → Clause
  | .belief fact => .belief (fact.rename π)
  | .rule defined => .rule (defined.rename π)
  | .goal literal => .goal (literal.rename π)
  | .plan defined => .plan (defined.rename π)

theorem rename_id (clause : Clause) : clause.rename id = clause := by
  cases clause with
  | belief literal | goal literal => exact congrArg _ literal.rename_id
  | plan defined => exact congrArg plan defined.rename_id
  | rule defined =>
    exact congrArg rule (congrArg₂ Rule.mk defined.head.rename_id defined.body.rename_id)

end Clause

instance : Renames Clause where
  vars := Clause.vars
  rename := Clause.rename
  rename_congr {π ρ clause} same := by
    cases clause with
    | belief literal | goal literal => exact congrArg _ (Term.rename_congr same)
    | rule defined =>
      obtain ⟨head, body⟩ := List.forall_mem_append.mp same
      exact congrArg Clause.rule
        (congrArg₂ Rule.mk (Term.rename_congr head) (Formula.rename_congr body))
    | plan defined =>
      refine congrArg Clause.plan (Plan.rename_congr fun v member => same v ?_)
      simp only [Clause.vars, Plan.vars, List.mem_append] at member ⊢
      tauto
  vars_rename π clause := by
    cases clause with
    | belief literal | goal literal => exact Term.vars_rename π literal
    | rule defined =>
      show (defined.head.rename π).vars ++ (defined.body.rename π).vars = List.map π (_ ++ _)
      rw [Term.vars_rename, Formula.vars_rename, List.map_append]
    | plan defined =>
      obtain ⟨trigger, condition, statements, name⟩ := defined
      have body : Statement.varsAll (statements.map (Statement.rename π)) =
          (Statement.varsAll statements).map π := by
        rw [← Statement.renameAll_eq_map, Statement.varsAll_renameAll]
      have label : (name.map (Term.rename π)).elim [] Term.vars = (name.elim [] Term.vars).map π := by
        cases name with
        | none => rfl
        | some term => exact Term.vars_rename π term
      simp only [Clause.vars, Clause.rename, Plan.rename, Trigger.rename, Term.vars_rename,
        Formula.vars_rename, body, label, List.map_append]

namespace Program

/-- A program with other names for its variables. -/
def rename (π : Variable → Variable) (program : Program) : Program where
  beliefs := program.beliefs.map (Term.rename π)
  rules := program.rules.map (Rule.rename π)
  goals := program.goals.map (Term.rename π)
  plans := program.plans.map (Plan.rename π)

instance : Append Program where
  append first second :=
    ⟨first.beliefs ++ second.beliefs, first.rules ++ second.rules, first.goals ++ second.goals,
      first.plans ++ second.plans⟩

theorem ofClauses_append (first second : List Clause) :
    ofClauses (first ++ second) = ofClauses first ++ ofClauses second := by
  simp only [ofClauses, List.filterMap_append]
  rfl

theorem ofClauses_rename (π : Variable → Variable) (clauses : List Clause) :
    ofClauses (clauses.map (Clause.rename π)) = (ofClauses clauses).rename π := by
  have each {α : Type} {f : Clause → Option α} {g : α → α}
      (same : ∀ clause, f (clause.rename π) = (f clause).map g) :
      (clauses.map (Clause.rename π)).filterMap f = (clauses.filterMap f).map g := by
    rw [List.filterMap_map, List.map_filterMap]
    exact List.filterMap_congr fun clause _ => same clause
  simp only [ofClauses, rename]
  congr 1
  · exact each fun clause => by cases clause <;> rfl
  · exact each fun clause => by cases clause <;> rfl
  · exact each fun clause => by cases clause <;> rfl
  · exact each fun clause => by cases clause <;> rfl

end Program

end AgentSpeak
