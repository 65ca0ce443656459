import AgentSpeak.Proofs.Variants.Stack

namespace AgentSpeak

namespace Agent

variable {agent other : Agent}

theorem Stacked.isEmpty {goal goal' : Option Term} {frames frames' : List Frame}
    (stacked : Stacked agent other goal goal' frames frames') :
    frames'.isEmpty = frames.isEmpty := by
  cases stacked <;> rfl

theorem together_runFor (varies : agent.Varies other) {intention intention' : Intention}
    (own : Intention.Varies agent other intention intention') (fuel : Nat) :
    Together agent other (runFor fuel intention) (runFor fuel intention')
      fun done done' _ _ => done' = done := by
  have same : intention'.isDone = intention.isDone := own.stacked.isEmpty
  induction fuel generalizing agent other intention intention' with
  | zero => exact together_pure varies same
  | succ fuel ih =>
    rw [runFor, runFor, same]
    split
    next => exact together_pure varies rfl
    next =>
      refine (move_step varies own).bind fun result result' _ _ _ varies moved => ?_
      obtain ⟨live, next⟩ := result
      obtain ⟨live', next'⟩ := result'
      obtain ⟨rfl, stacked⟩ := moved
      cases live' with
      | true => exact ih varies stacked stacked.stacked.isEmpty
      | false => exact together_pure varies rfl

theorem together_begin (varies : agent.Varies other) {frame frame' : Frame}
    (opened : Opened none none frame frame' agent other) :
    Together agent other (begin frame) (begin frame') fun intention intention' after after' =>
      Intention.Varies after after' intention intention' := by
  have begun : Varies { agent with intentions := agent.intentions + 1 }
      { other with intentions := other.intentions + 1 } :=
    { varies with }
  have onwards : Onwards agent other { agent with intentions := agent.intentions + 1 }
      { other with intentions := other.intentions + 1 } :=
    ⟨Nat.le_refl _, Nat.le_refl _, Nat.le_refl _, Nat.le_refl _⟩
  refine (together_modify begun onwards).bind fun _ _ after after' later varies left => ?_
  obtain ⟨rfl, rfl⟩ := left
  have nothing : Stacked agent other none none [] [] := .nil
  have stacked := nothing.push opened
  exact .get (together_pure varies ⟨rfl, stacked.after onwards⟩)

/-- Corresponding events are handled with the same result. -/
theorem together_handle (varies : agent.Varies other) {trigger trigger' : Trigger}
    (event : trigger.Varies trigger') :
    Together agent other (handle trigger) (handle trigger') fun done done' _ _ => done' = done := by
  refine (together_selectPlan varies event none none).bind
    fun found found' after after' _ varies chosen => ?_
  cases chosen with
  | none =>
    obtain ⟨names, -, rfl⟩ := event
    have reported : Together after after' (reportUnhandled trigger)
        (reportUnhandled (trigger.rename names.name)) fun _ _ _ _ => True := by
      unfold reportUnhandled
      refine .written varies (trigger.isWritable_rename _) ?_
      rw [show (trigger.rename names.name).subject = trigger.subject from rfl]
      split
      next => exact together_reportNamed varies _ _ _ _
      next => exact together_reportNamed varies _ _ _ _
    exact reported.bind fun _ _ _ _ _ varies _ => together_pure varies rfl
  | some opened =>
    refine (together_begin varies opened).bind fun intention intention' _ _ _ varies own => ?_
    refine .get ?_
    rw [varies.limits]
    exact together_runFor varies own _

/-- What an agent does with its queue, event by event: the outcome of each event and the agent that
it leaves. -/
def trail : Nat → Agent → List (Except Fault Bool × Agent)
  | 0, _ => []
  | limit + 1, agent =>
      match agent.events with
      | [] => []
      | trigger :: rest =>
          let (outcome, after) := (handle trigger).run.run { agent with events := rest }
          (outcome, after) :: trail limit after

theorem Varies.trail (varies : agent.Varies other) (limit : Nat) :
    List.Forall₂ (fun turn turn' => Concur False (fun done done' => done' = done) turn.1 turn'.1 ∧
      turn.2.Varies turn'.2) (trail limit agent) (trail limit other) := by
  induction limit generalizing agent other with
  | zero => exact .nil
  | succ limit ih =>
    have queued := varies.events
    unfold Agent.trail
    generalize agent.events = events at queued ⊢
    generalize other.events = events' at queued ⊢
    cases queued with
    | nil => exact .nil
    | @cons trigger trigger' rest rest' event others =>
      have taken : Varies { agent with events := rest } { other with events := rest' } :=
        { varies with events := others }
      have together := together_handle taken event
      exact .cons ⟨together.agree, together.varies⟩ (ih together.varies)

end Agent

/-!
Names of variables do not matter. Where one rule or one plan of a program has other names for its
variables, the agent of the program handles every event as before: it believes the same facts, has
the same results and fails in the same way, and its events differ in names only.
-/

/-- Other names for the named variables among some, different ones for different variables. -/
structure Variable.Respells (π : Variable → Variable) (vs : List Variable) : Prop where
  apart : ∀ v ∈ vs, ∀ w ∈ vs, π v = π w → v = w
  named : ∀ v ∈ vs, v.marks = [] → (π v).marks = [] ∧ (π v).base ≠ "_"
  wildcards : ∀ v ∈ vs, v.marks ≠ [] → π v = v

/-- One rule or one plan of a program has other names for its variables. -/
inductive Program.Respelled : Program → Program → Prop where
  | rule (beliefs goals : List Term) (plans : List Plan) (before behind : List Rule) (rule : Rule)
      (respells : Variable.Respells π (rule.head.vars ++ rule.body.vars)) :
      Respelled ⟨beliefs, before ++ rule :: behind, goals, plans⟩
        ⟨beliefs, before ++ rule.rename π :: behind, goals, plans⟩
  | plan (beliefs goals : List Term) (rules : List Rule) (before behind : List Plan) (plan : Plan)
      (respells : Variable.Respells π plan.vars) :
      Respelled ⟨beliefs, rules, goals, before ++ plan :: behind⟩
        ⟨beliefs, rules, goals, before ++ plan.rename π :: behind⟩

namespace Variable.Respells

variable {π : Variable → Variable} {vs : List Variable}

/-- Other names as a correspondence. -/
def names (respells : Respells π vs) : Correspondence False where
  knows v := v ∈ vs
  name := π
  apart {v w} member member' same := respells.apart v member w member' same
  base shown := shown.elim

theorem isWritten (respells : Respells π vs) (written : ∀ v ∈ vs, v.IsWritten) :
    respells.names.IsWritten where
  left {v} member := written v member
  right {v} member := by
    by_cases bare : v.marks = []
    · exact .inl (respells.named v member bare)
    · show (π v).IsWritten
      rw [respells.wildcards v member bare]
      exact written v member

end Variable.Respells

namespace Program

/-- Programs whose rules and plans differ in the names of their variables. -/
structure Varies (program other : Program) : Prop where
  beliefs : other.beliefs = program.beliefs
  goals : other.goals = program.goals
  rules : List.Forall₂ (Rule.Varies False) program.rules other.rules
  plans : List.Forall₂ Plan.Varies program.plans other.plans

theorem IsWritten.varies_self {program : Program} (written : program.IsWritten) :
    program.Varies program where
  beliefs := rfl
  goals := rfl
  rules := List.forall₂_same.mpr fun rule member =>
    Rule.varies_self (List.forall_mem_append.mpr (written.rules rule member))
  plans := List.forall₂_same.mpr fun plan member => Plan.varies_self (written.plans plan member)

private theorem forall₂_replaced {α : Type} {related : α → α → Prop} {before behind : List α}
    {old new : α} (self : ∀ item ∈ before ++ old :: behind, related item item)
    (changed : related old new) :
    List.Forall₂ related (before ++ old :: behind) (before ++ new :: behind) := by
  obtain ⟨first, others⟩ := List.forall_mem_append.mp self
  refine List.rel_append (List.forall₂_same.mpr first) (.cons changed (List.forall₂_same.mpr ?_))
  exact fun item member => others item (List.mem_cons_of_mem _ member)

theorem Respelled.varies {program other : Program} (respelled : program.Respelled other)
    (written : program.IsWritten) : program.Varies other := by
  have self := written.varies_self
  cases respelled with
  | rule beliefs goals plans before behind rule respells =>
    have own := List.forall_mem_append.mpr (written.rules rule (by simp))
    obtain ⟨headOver, bodyOver⟩ : rule.head.Over respells.names.knows ∧
        rule.body.Over respells.names.knows := List.forall_mem_append.mp fun _ member => member
    refine ⟨rfl, rfl, forall₂_replaced (List.forall₂_same.mp self.rules) ?_, self.plans⟩
    exact ⟨respells.names, respells.isWritten own, headOver, bodyOver, rfl⟩
  | plan beliefs goals rules before behind plan respells =>
    have own := written.plans plan (by simp)
    refine ⟨rfl, rfl, self.rules, forall₂_replaced (List.forall₂_same.mp self.plans) ?_⟩
    exact ⟨respells.names, respells.isWritten own, fun _ member => member, rfl⟩

end Program

namespace Agent

variable {agent other : Agent}

theorem together_load (varies : agent.Varies other) {program program' : Program}
    (programs : program.Varies program') :
    Together agent other (load program) (load program') fun _ _ _ _ => True := by
  have ruled := varies.beliefs.addRules programs.rules
  have onwards : Onwards agent other
      { agent with beliefs := program.rules.foldl BeliefBase.addRule agent.beliefs }
      { other with beliefs := program'.rules.foldl BeliefBase.addRule other.beliefs } :=
    ⟨Nat.le_refl _, Nat.le_refl _, (BeliefBase.renamings_addRules _ _).ge,
      (BeliefBase.renamings_addRules _ _).ge⟩
  refine (together_modify { varies with beliefs := ruled } onwards).bind
    fun _ _ _ _ _ varies _ => ?_
  rw [programs.beliefs, programs.goals]
  refine (together_forM varies fun fact _ _ _ varies => ?_).bind fun _ _ _ _ _ varies _ => ?_
  · have same : (Correspondence.same False fun _ => True).Terms fact fact :=
      ⟨fun _ _ => trivial, fact.rename_id.symm⟩
    exact (together_addBelief varies same).bind fun _ _ _ _ _ varies _ =>
      together_pure varies trivial
  · exact together_forM varies fun goal _ _ _ varies =>
      together_post varies (Trigger.varies_self _)

theorem varies_ofReading {reading reading' : Program.Reading}
    (programs : reading.program.Varies reading'.program) (name : String) (limits : Limits)
    (begun begun' : Nat) :
    (ofReading reading name limits .empty begun).Varies
      (ofReading reading' name limits .empty begun') := by
  have idle : Varies { idle name limits reading.program.plans .empty begun with
        journal := ⟨[], [], reading.log.reverse⟩ }
      { idle name limits reading'.program.plans .empty begun' with
        journal := ⟨[], [], reading'.log.reverse⟩ } :=
    ⟨rfl, rfl, fun _ => rfl, fun _ => rfl, rfl, rfl, programs.plans, BeliefBase.varies_empty, .nil⟩
  exact (together_load idle programs).varies

/-- The same facts, and as many events with the same literals but for the names of variables. -/
structure Alike (agent other : Agent) : Prop where
  facts : other.beliefs.facts = agent.beliefs.facts
  events : List.Forall₂ (fun event event' => ∃ π : Variable → Variable, Function.Injective π ∧
    event' = event.rename π) agent.events other.events

theorem Varies.alike (varies : agent.Varies other) : agent.Alike other where
  facts := by rw [BeliefBase.facts, BeliefBase.facts, varies.beliefs.groups]
  events := varies.events.imp fun event event' own => by
    obtain ⟨names, known, rfl⟩ := own
    obtain ⟨π, one, same, -⟩ := names.exists_total event.literal.vars known
    refine ⟨π, one, ?_⟩
    rw [Trigger.rename, Trigger.rename, Term.rename_congr same]

/-- Names of variables do not matter. If one rule or one plan of a program gets other names for its
named variables, then the agent believes the same facts after every event, its queue is as long
with events that differ in names only, and every event has the same result or a fault of the same
kind. -/
theorem trail_respelled {reading reading' : Program.Reading}
    (written : reading.program.IsWritten) (respelled : reading.program.Respelled reading'.program)
    (name : String) (limits : Limits) (begun begun' limit : Nat) :
    (ofReading reading name limits .empty begun).Alike
        (ofReading reading' name limits .empty begun') ∧
      List.Forall₂ (fun turn turn' => turn'.1.mapError Fault.kind = turn.1.mapError Fault.kind ∧
          turn.2.Alike turn'.2)
        (trail limit (ofReading reading name limits .empty begun))
        (trail limit (ofReading reading' name limits .empty begun')) := by
  have varies := varies_ofReading (respelled.varies written) name limits begun begun'
  refine ⟨varies.alike, (varies.trail limit).imp fun turn turn' own => ?_⟩
  obtain ⟨agree, later⟩ := own
  refine ⟨?_, later.alike⟩
  generalize turn.1 = outcome at agree ⊢
  generalize turn'.1 = outcome' at agree ⊢
  cases agree with
  | ok same => rw [same]
  | error alike => exact congrArg Except.error alike.kind

/-- In the plan for `g(X)` the variable is called `Y`. -/
def respelledPlans : Program where
  beliefs := []
  rules := []
  goals := [.atom "s"]
  plans := [
    ⟨.goal (.atom "s"), .literal Term.truth, [.achieve (.compound "g" [.var ⟨"X", []⟩])], none⟩,
    ⟨.goal (.compound "g" [.var ⟨"Y", []⟩]), .literal Term.truth, [], none⟩]

theorem respelled_twoPlans : twoPlans.Respelled respelledPlans := by
  let asked : Plan := ⟨.goal (.compound "g" [.var ⟨"X", []⟩]), .literal Term.truth, [], none⟩
  have respells : Variable.Respells (fun _ => ⟨"Y", []⟩) asked.vars := by
    have only : ∀ v ∈ asked.vars, v = ⟨"X", []⟩ := fun v occurs => List.mem_singleton.mp occurs
    refine ⟨fun v member w member' _ => (only v member).trans (only w member').symm, ?_, ?_⟩
    · exact fun v member bare => ⟨rfl, by decide⟩
    · intro v member marked
      exact absurd (congrArg Variable.marks (only v member)) marked
  exact .plan [] [.atom "s"] [] [_] [] asked respells

/-- With either name for the variable, the event of the goal `s` is handled. -/
theorem trail_respelled_twoPlans :
    twoPlans.IsWritten ∧ twoPlans.Respelled respelledPlans ∧
      (trail 2 (ofReading ⟨respelledPlans, []⟩ "a" ⟨1, 2, true⟩ .empty 0)).map
        (fun turn => turn.1.mapError Fault.kind) = [.ok true] := by
  refine ⟨isWritten_twoPlans, respelled_twoPlans, ?_⟩
  have before : (trail 2 (ofReading ⟨twoPlans, []⟩ "a" ⟨1, 2, true⟩ .empty 0)).map
      (fun turn => turn.1.mapError Fault.kind) = [.ok true] := rfl
  obtain ⟨-, same⟩ := @trail_respelled ⟨twoPlans, []⟩ ⟨respelledPlans, []⟩ isWritten_twoPlans
    respelled_twoPlans "a" ⟨1, 2, true⟩ 0 0 2
  rw [← before, ← List.forall₂_eq_eq_eq, List.forall₂_map_left_iff, List.forall₂_map_right_iff]
  exact same.flip.imp fun _ _ own => own.1

end Agent

end AgentSpeak
