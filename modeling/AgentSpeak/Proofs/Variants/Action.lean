import AgentSpeak.Proofs.Agent.Action
import AgentSpeak.Proofs.Variants.Operations

namespace AgentSpeak

namespace Correspondence

variable {texts : Prop} {names : Correspondence texts}

theorem terms_of_isGround {term : Term} (ground : term.isGround = true) : names.Terms term term :=
  ⟨Term.over_of_isGround ground, (Term.bind_of_isGround ground _).symm⟩

theorem terms_apply {term term' : Term} {θ θ' : Substitution} (terms : names.Terms term term')
    (bindings : names.Bindings θ θ') : names.Terms (θ.apply term) (θ'.apply term') := by
  refine ⟨bindings.inside.over.apply terms.known, ?_⟩
  rw [terms.same, bindings.same, names.apply_name terms.known bindings.inside]

theorem formulas_literal {term term' : Term} (terms : names.Terms term term') :
    names.Formulas (.literal term) (.literal term') :=
  ⟨fun v member => terms.known v member, congrArg Formula.literal terms.same⟩

/-- Lists of corresponding terms correspond. -/
theorem terms_ofList {items items' : List Term} (each : List.Forall₂ names.Terms items items') :
    names.Terms (.ofList items Term.nil) (.ofList items' Term.nil) := by
  induction each with
  | nil => exact terms_of_isGround rfl
  | @cons item item' rest rest' first others ih =>
    refine ⟨fun v member => ?_, ?_⟩
    · have parts : v ∈ item.vars ++ (Term.ofList rest Term.nil).vars := by
        simpa [Term.ofList, Term.cons] using member
      exact (List.mem_append.mp parts).elim (first.known v) (ih.known v)
    · show Term.cons item' (.ofList rest' Term.nil) =
        (Term.cons item (.ofList rest Term.nil)).rename names.name
      rw [first.same, ih.same, Term.cons, Term.cons, Term.rename_compound]
      rfl

end Correspondence

namespace Agent

variable {agent other : Agent} {stage : Stage False} {arguments arguments' : List Term}
  {θ θ' : Substitution}

/-- The two agents go on with the bindings that they have. -/
theorem finds_same {after after' : Agent} (serves : stage.Serves after after')
    {found found' : Option Substitution} (related : Option.Rel stage.Bindings found found') :
    Finds stage found found' after after' :=
  ⟨stage, .refl stage, serves, related⟩

theorem together_displayed (varies : agent.Varies other) {term term' : Term}
    (terms : stage.Terms term term') (bindings : stage.Bindings θ θ') :
    Together agent other (displayed θ term) (displayed θ' term')
      fun _ _ after after' => after = agent ∧ after' = other := by
  refine (together_resolve varies terms bindings).bind fun _ _ _ _ _ varies own => ?_
  obtain ⟨rfl, rfl, resolved⟩ := own
  exact .written varies resolved.isWritable (together_pure varies ⟨rfl, rfl⟩)

theorem together_displayAll (varies : agent.Varies other)
    (terms : List.Forall₂ stage.Terms arguments arguments') (bindings : stage.Bindings θ θ') :
    Together agent other (arguments.mapM (displayed θ)) (arguments'.mapM (displayed θ'))
      fun _ _ after after' => after = agent ∧ after' = other := by
  induction terms with
  | nil => exact together_pure varies ⟨rfl, rfl⟩
  | cons first rest ih =>
    rw [List.mapM_cons, List.mapM_cons]
    refine (together_displayed varies first bindings).bind fun _ _ after after' _ varies own => ?_
    obtain ⟨rfl, rfl⟩ := own
    refine ih.bind fun _ _ last last' _ varies own => ?_
    exact together_pure varies own

section

variable (varies : agent.Varies other) (serves : stage.Serves agent other)
  (terms : List.Forall₂ stage.Terms arguments arguments') (bindings : stage.Bindings θ θ')

include varies serves terms bindings

theorem together_performPrint :
    Together agent other (performPrint arguments θ) (performPrint arguments' θ')
      (Finds stage) := by
  refine (together_displayAll varies terms bindings).bind fun _ _ after after' _ varies own => ?_
  obtain ⟨rfl, rfl⟩ := own
  refine (together_print varies _ _).bind fun _ _ last last' onwards varies _ => ?_
  exact together_pure varies (finds_same (serves.after onwards) (.some bindings))

theorem together_performMyName :
    Together agent other (performMyName arguments θ) (performMyName arguments' θ')
      (Finds stage) := by
  have refused : Together agent other
      (throw (.wrongArity "my_name" 1) : AgentM (Option Substitution))
      (throw (.wrongArity "my_name" 1) : AgentM (Option Substitution)) (Finds stage) :=
    together_throw varies (.refl _ _)
  cases terms with
  | nil => exact refused
  | cons target rest =>
    cases rest with
    | nil =>
      refine .get (together_pure varies (finds_same serves ?_))
      rw [varies.name]
      exact stage.unify?_related target (Correspondence.terms_of_isGround rfl) bindings false
    | cons => exact refused

theorem together_performCount :
    Together agent other (performCount arguments θ) (performCount arguments' θ')
      (Finds stage) := by
  have refused : Together agent other
      (throw (.wrongArity "count" 2) : AgentM (Option Substitution))
      (throw (.wrongArity "count" 2) : AgentM (Option Substitution)) (Finds stage) :=
    together_throw varies (.refl _ _)
  rcases terms with _ | ⟨query, _ | ⟨target, _ | _⟩⟩
  · exact refused
  · exact refused
  · have asked := Correspondence.formulas_literal (Correspondence.terms_apply query bindings)
    refine (together_answers varies serves asked bindings).bind
      fun found found' after after' onwards varies own => ?_
    obtain ⟨later, leads, laterServes, related⟩ := own
    refine together_pure varies (finds_same (serves.after onwards) ?_)
    rw [related.length_eq]
    exact stage.unify?_related target (Correspondence.terms_of_isGround rfl) bindings false
  · exact refused

theorem together_performFindall :
    Together agent other (performFindall arguments θ) (performFindall arguments' θ')
      (Finds stage) := by
  have refused : Together agent other
      (throw (.wrongArity "findall" 3) : AgentM (Option Substitution))
      (throw (.wrongArity "findall" 3) : AgentM (Option Substitution)) (Finds stage) :=
    together_throw varies (.refl _ _)
  rcases terms with _ | ⟨template, _ | ⟨query, _ | ⟨target, _ | _⟩⟩⟩
  · exact refused
  · exact refused
  · exact refused
  · have asked := Correspondence.formulas_literal (Correspondence.terms_apply query bindings)
    refine (together_answers varies serves asked bindings).bind
      fun found found' after after' onwards varies own => ?_
    obtain ⟨later, leads, laterServes, related⟩ := own
    refine .written varies (Correspondence.terms_apply query bindings).isWritable ?_
    refine (together_report varies _ _ _ _).bind fun _ _ last last' more varies _ => ?_
    refine together_pure varies ⟨later, leads, laterServes.after more, ?_⟩
    have instances := List.rel_map (fun _ _ answer =>
      Correspondence.terms_apply (leads.keeps.terms template) answer) related
    exact later.unify?_related (leads.keeps.terms target)
      (Correspondence.terms_ofList instances) (leads.keeps.bindings bindings) false
  · exact refused

theorem together_performBuiltin (name : String) :
    Together agent other (performBuiltin name arguments θ) (performBuiltin name arguments' θ')
      (Finds stage) := by
  unfold performBuiltin
  split
  next => exact together_performPrint varies serves terms bindings
  next => exact together_performPrint varies serves terms bindings
  next => exact together_pure varies (finds_same serves .none)
  next => exact together_performMyName varies serves terms bindings
  next => exact together_performCount varies serves terms bindings
  next => exact together_performFindall varies serves terms bindings
  next => exact together_throw varies (.refl _ _)

/-- Corresponding actions give corresponding bindings. -/
theorem together_perform (kind : ActionKind) (name : String) :
    Together agent other (perform kind name arguments θ) (perform kind name arguments' θ')
      (Finds stage) := by
  cases kind with
  | builtin => exact together_performBuiltin varies serves terms bindings name
  | user =>
    refine .get ?_
    rw [varies.actions, varies.actions']
    exact together_throw varies (.refl _ _)

end

end Agent

end AgentSpeak
