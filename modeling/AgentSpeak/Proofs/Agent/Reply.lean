import AgentSpeak.Proofs.Agent.Acyclic
import AgentSpeak.Proofs.Term.Folding

/-!
What a reply of the environment binds. A reply with fields binds variables that the arguments stand
for, each to the field of its own written name. That is the name of an argument's variable only if the
variable stands for itself or for one written alike: a variable that a goal passed in gets the field
of the name it has there, or none.
-/

namespace AgentSpeak

open Substitution

namespace Agent

variable {θ answer : Substitution} {fields : List (String × HostValue)} {arguments : List Term}
  {agent after : Agent}

theorem isGround_of_lookup {key : String} {value : HostValue} {term : Term}
    (ground : ∀ field ∈ fields, ∀ term, field.2.toTerm = .ok term → term.isGround = true)
    (present : fields.lookup key = some value) (converted : value.toTerm = .ok term) :
    term.isGround = true := by
  obtain ⟨before, behind, split, -⟩ := List.lookup_eq_some_iff.mp present
  exact ground (key, value) (by simp [split]) term converted

/-- A variable without a value, or with this one already, takes a ground value. -/
theorem exists_bindTo {v : Variable} {term : Term} (ground : term.isGround = true)
    (free : θ.find? v = none ∨ θ.find? v = some term) :
    ∃ extended, bindTo (.var v) term θ = some extended ∧ extended.find? v = some term ∧
      ∀ w, w ≠ v → extended.find? w = θ.find? w := by
  have closed : term.Over fun w => θ.find? w = none := Term.over_of_isGround ground
  rcases free with free | found
  · have apart : (Term.var v == term) = false := by
      refine Term.var_bne_of_rigid v ?_
      cases term <;> first | rfl | cases ground
    refine ⟨θ.insert v term, ?_, by rw [find?_insert, if_pos rfl], fun w other => ?_⟩
    · rw [bindTo, unify?, unifyWithin, walk_unbound free, walk_of_isGround ground, apart]
      rfl
    · rw [find?_insert, if_neg other]
  · refine ⟨θ, ?_, found, fun _ _ => rfl⟩
    rw [bindTo, unify?, unifyWithin, walk_of_found found closed, walk_of_isGround ground,
      if_pos BEq.rfl]

/-- The bindings after a reply: the variables among the arguments that a field is named after have
its term for a value, and all others are as before. -/
structure Accepted (fields : List (String × HostValue)) (arguments : List Term)
    (θ answer : Substitution) : Prop where
  given : ∀ v value, .var v ∈ arguments → fields.lookup v.base = some value →
    ∃ term, value.toTerm = .ok term ∧ answer.find? v = some term
  kept : ∀ v, .var v ∉ arguments ∨ fields.lookup v.base = none → answer.find? v = θ.find? v

/-- An argument that is bound to nothing leaves the others to bind. -/
theorem Accepted.cons {argument : Term} (accepted : Accepted fields arguments θ answer)
    (nothing : ∀ v, argument = .var v → fields.lookup v.base = none) :
    Accepted fields (argument :: arguments) θ answer where
  given v value member present := by
    rcases List.mem_cons.mp member with here | there
    · rw [nothing v here.symm] at present
      cases present
    · exact accepted.given v value there present
  kept v apart :=
    accepted.kept v (apart.imp_left fun outside there => outside (List.mem_cons_of_mem _ there))

/-- An argument that takes the value of its field leaves the others to bind. -/
theorem Accepted.bound {v : Variable} {value : HostValue} {term : Term} {extended : Substitution}
    (accepted : Accepted fields arguments extended answer)
    (present : fields.lookup v.base = some value) (converted : value.toTerm = .ok term)
    (own : extended.find? v = some term) (apart : ∀ w, w ≠ v → extended.find? w = θ.find? w) :
    Accepted fields (.var v :: arguments) θ answer where
  given w found member named := by
    by_cases later : .var w ∈ arguments
    · exact accepted.given w found later named
    · have here : w = v := by simpa [later] using member
      subst here
      cases present.symm.trans named
      exact ⟨term, converted, (accepted.kept w (.inl later)).trans own⟩
  kept w outside := by
    have other : w ≠ v := by
      rintro rfl
      simp [present] at outside
    rw [accepted.kept w (outside.imp_left fun outside there =>
      outside (List.mem_cons_of_mem _ there)), apart w other]

/-- A reply of ground values binds the arguments that have no value yet, or it has a field without a
term. -/
theorem bindFields_accepted {found : Option Substitution}
    (ground : ∀ field ∈ fields, ∀ term, field.2.toTerm = .ok term → term.isGround = true)
    (free : ∀ v, .var v ∈ arguments → θ.find? v = none ∨
      ∃ value term, fields.lookup v.base = some value ∧ value.toTerm = .ok term ∧
        θ.find? v = some term)
    (done : bindFields fields arguments θ = .ok found) :
    ∃ answer, found = some answer ∧ Accepted fields arguments θ answer := by
  induction arguments generalizing θ with
  | nil =>
    cases done
    exact ⟨θ, rfl, ⟨fun _ _ member => (nomatch member), fun _ _ => rfl⟩⟩
  | cons argument rest ih =>
    have others := fun v member => free v (List.mem_cons_of_mem argument member)
    cases argument with
    | atom name | number value | string value | compound functor arguments =>
      obtain ⟨answer, same, accepted⟩ := ih others done
      exact ⟨answer, same, accepted.cons fun _ equal => nomatch equal⟩
    | var v =>
      rw [bindFields] at done
      split at done
      next missing =>
        obtain ⟨answer, same, accepted⟩ := ih others done
        refine ⟨answer, same, accepted.cons fun w equal => ?_⟩
        cases equal
        exact missing
      next value present =>
        split at done
        next => cases done
        next term converted =>
          have closed := isGround_of_lookup ground present converted
          have vacant : θ.find? v = none ∨ θ.find? v = some term := by
            refine (free v List.mem_cons_self).imp_right ?_
            rintro ⟨_, _, again, same, bound⟩
            cases present.symm.trans again
            cases converted.symm.trans same
            exact bound
          obtain ⟨extended, bound, own, apart⟩ := exists_bindTo closed vacant
          rw [bound] at done
          have free' : ∀ w, .var w ∈ rest → extended.find? w = none ∨
              ∃ value term, fields.lookup w.base = some value ∧ value.toTerm = .ok term ∧
                extended.find? w = some term := by
            intro w member
            by_cases equal : w = v
            · subst equal
              exact .inr ⟨value, term, present, converted, own⟩
            · rw [apart w equal]
              exact others w member
          obtain ⟨answer, same, accepted⟩ := ih free' done
          exact ⟨answer, same, accepted.bound present converted own apart⟩

theorem run_resolveAll {resolved : List Term}
    (ran : (arguments.mapM (resolve θ)).run.run agent = (.ok resolved, after)) :
    arguments.map θ.resolve = resolved.map .ok := by
  induction arguments generalizing agent resolved with
  | nil =>
    cases ran
    rfl
  | cons argument rest ih =>
    rw [List.mapM_cons] at ran
    obtain ⟨value, between, first, others⟩ := exists_of_run_bind ran
    obtain ⟨values, last, tail, same⟩ := exists_of_run_bind others
    cases same
    exact List.cons_eq_cons.mpr ⟨congrArg Prod.fst first, ih tail⟩

/-- An environment action goes on with the bindings that its reply for the resolved arguments asks
for. -/
theorem exists_of_run_user {effect : Effect} {name : String} {action : UserAction}
    (listed : agent.actions.find? name = some action)
    (ran : (execute θ (.statement (.action .user name arguments))).run.run agent =
      (.ok effect, after)) :
    ∃ resolved found, arguments.map θ.resolve = resolved.map .ok ∧
      acceptReply name resolved θ (action resolved) = .ok found ∧ effect = .ofBindings found := by
  have performed : (performUser name arguments θ >>=
      fun found => pure (Effect.ofBindings found)).run.run agent = (.ok effect, after) := ran
  obtain ⟨found, between, called, same⟩ := exists_of_run_bind performed
  cases same
  obtain ⟨_, _, ⟨⟩, listing⟩ := exists_of_run_bind called
  dsimp only at listing
  rw [listed] at listing
  obtain ⟨resolved, _, parts, recording⟩ := exists_of_run_bind listing
  obtain ⟨_, _, -, accepted⟩ := exists_of_run_bind recording
  exact ⟨resolved, found, run_resolveAll parts, congrArg Prod.fst accepted, rfl⟩

/-- What a reply makes of a variable: the term of the field of its written name; if there is none, the
variable is left. -/
def FilledIn (fields : List (String × HostValue)) (v : Variable) (term : Term) : Prop :=
  match fields.lookup v.base with
  | none => term = .var v
  | some value => value.toTerm = .ok term

/-- The reply to an environment action fills in the variable that an argument stands for, by the name
which that variable was written with. -/
theorem execute_fillsIn {effect : Effect} {name : String} {action : UserAction}
    (acyclic : θ.Acyclic) (replies : agent.actions.RepliesGround)
    (listed : agent.actions.find? name = some action)
    (ran : (execute θ (.statement (.action .user name arguments))).run.run agent =
      (.ok effect, after)) :
    ∃ resolved, arguments.map θ.resolve = resolved.map .ok ∧
      ∀ fields, action resolved = .record fields →
        ∃ answer, effect = .proceeded answer [] ∧ answer.Acyclic ∧ answer.Extends θ ∧
          ∀ argument ∈ arguments, ∀ v, θ.resolve argument = .ok (.var v) →
            FilledIn fields v (answer.apply argument) := by
  obtain ⟨resolved, found, parts, accepted, rfl⟩ := exists_of_run_user listed ran
  refine ⟨resolved, parts, fun fields replied => ?_⟩
  rw [replied, acceptReply] at accepted
  have ground := replies name action listed resolved fields replied
  have free : ∀ v, .var v ∈ resolved → θ.find? v = none := by
    intro v member
    have source : .ok (.var v) ∈ arguments.map θ.resolve := parts ▸ List.mem_map_of_mem member
    obtain ⟨argument, -, done⟩ := List.mem_map.mp source
    exact Term.over_var.mp (acyclic.unbound_of_resolve done)
  obtain ⟨answer, rfl, own⟩ := bindFields_accepted ground (fun v member => .inl (free v member))
    accepted
  have acyclic' := acyclic_of_bindFields ground acyclic accepted
  have wider : answer.Extends θ := by
    intro v term bound
    refine (own.kept v (.inl fun member => ?_)).trans bound
    rw [free v member] at bound
    cases bound
  refine ⟨answer, rfl, acyclic', wider, fun argument member v stands => ?_⟩
  have inside : .var v ∈ resolved := by
    have target : θ.resolve argument ∈ resolved.map .ok := parts ▸ List.mem_map_of_mem member
    obtain ⟨_, present, same⟩ := List.mem_map.mp target
    exact Except.ok.inj (same.trans stands) ▸ present
  rw [← acyclic'.apply_earlier wider acyclic, Term.eq_var_of_fold stands, FilledIn]
  split
  next missing => rw [apply_unbound ((own.kept v (.inr missing)).trans (free v inside))]
  next value present =>
    obtain ⟨term, converted, bound⟩ := own.given v value inside present
    have closed := isGround_of_lookup ground present converted
    rw [converted, apply_of_found bound (Term.over_of_isGround closed)]

section Reaching

variable {source : Variable → Prop} {limits : Limits} {environment : ActionTable → Prop}

/-- In a frame of an intention, an argument that is a variable without a value takes the field of its
own name. -/
theorem Reachable.fillsIn_unbound (checked : limits.occursCheck = true)
    (replies : ∀ actions, environment actions → actions.RepliesGround) {intention : Intention}
    (reachable : Reachable source limits environment agent (some intention))
    (lacks : ∀ plan ∈ agent.plans, Statement.lacksAll "findall" plan.body = true)
    {frame : Frame} (member : frame ∈ intention.frames) {effect : Effect} {name : String}
    {action : UserAction} (listed : agent.actions.find? name = some action)
    (ran : (execute frame.bindings (.statement (.action .user name arguments))).run.run agent =
      (.ok effect, after)) :
    ∃ resolved, arguments.map frame.bindings.resolve = resolved.map .ok ∧
      ∀ fields, action resolved = .record fields → ∃ answer, effect = .proceeded answer [] ∧
        ∀ v, .var v ∈ arguments → frame.bindings.find? v = none →
          FilledIn fields v (answer.apply (.var v)) := by
  have clear := reachable.clear checked replies lacks
  obtain ⟨resolved, parts, own⟩ := execute_fillsIn (clear.frames _ rfl frame member).bindings
    clear.checks.replies listed ran
  refine ⟨resolved, parts, fun fields replied => ?_⟩
  obtain ⟨answer, proceeded, -, -, fills⟩ := own fields replied
  refine ⟨answer, proceeded, fun v argument free => fills (.var v) argument v ?_⟩
  rw [Substitution.resolve, apply_unbound free, Term.fold]

/-- An environment that looks up `X`. -/
def lookupTable : ActionTable :=
  ⟨[("look", fun _ => .record [("X", .number (.int 42))])]⟩

/-- A goal with a variable, and a plan for it that looks up its own variable. -/
def looking : Program where
  beliefs := []
  rules := []
  goals := [.compound "g" [.var ⟨"Y", []⟩]]
  plans := [⟨.goal (.compound "g" [.var ⟨"X", []⟩]), .literal Term.truth,
    [.action .user "look" [.var ⟨"X", []⟩]], none⟩]

theorem isWritten_looking : looking.IsWritten := by
  refine ⟨nofun, ?_, ?_⟩
  · intro goal member v occurs
    rw [List.mem_singleton.mp member] at occurs
    have onlyY : v ∈ [⟨"Y", []⟩] := occurs
    rw [List.mem_singleton.mp onlyY]
    exact .inl ⟨rfl, by decide⟩
  · intro plan member v occurs
    rw [List.mem_singleton.mp member] at occurs
    have onlyX : v ∈ [⟨"X", []⟩, ⟨"X", []⟩] := occurs
    rcases List.mem_pair.mp onlyX with rfl | rfl <;> exact .inl ⟨rfl, by decide⟩

/-- The variable that the plan calls the action with has no value, and the reply has a field of its
name. But it stands for the variable of the goal, so it gets no value. -/
theorem reachable_overlooks : ∃ agent intention frame answer after,
    Reachable Variable.IsWritten ⟨1000, 1000, true⟩ (Eq lookupTable) agent (some intention) ∧
      intention.frames = [frame] ∧
      frame.tasks = [.statement (.action .user "look" [.var ⟨"X", []⟩])] ∧
      frame.bindings.apply (.var ⟨"X", []⟩) = .var ⟨"Y", ["e1"]⟩ ∧
      (execute frame.bindings (.statement (.action .user "look" [.var ⟨"X", []⟩]))).run.run agent =
        (.ok (.proceeded answer []), after) ∧
      answer.apply (.var ⟨"X", []⟩) = .var ⟨"Y", ["e1"]⟩ := by
  have created : Reachable Variable.IsWritten ⟨1000, 1000, true⟩ (Eq lookupTable) _ none :=
    .created looking isWritten_looking.over rfl "a" 0 ⟨[], [], []⟩
  have began := created.turned (.began rfl rfl rfl)
  exact ⟨_, _, _, _, _, began, rfl, rfl, rfl, rfl, rfl⟩

end Reaching

end Agent

end AgentSpeak
