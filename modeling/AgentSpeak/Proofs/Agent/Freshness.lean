import AgentSpeak.Proofs.Agent.Reachable
import AgentSpeak.Proofs.Beliefs.Snapshot

/-!
Renamed rules are fresh. An agent takes turns, somebody changes its beliefs, puts events into its
queue and goes on with searches of its beliefs now and then, in any order. The renamings of rules
are numbered through, whoever causes them, so that a rule that is applied has no variable in common
with what it is applied to, nor with a rule that was renamed before.
-/

namespace AgentSpeak

open Substitution

/-- What is left of a course behind its next answer: nothing if it has ended or failed. -/
def Course.Step.rest : Course.Step → List Course
  | .found _ rest => [rest]
  | _ => []

/-- The renamed rule has no variable in common with the literal that it is applied to, with the keys
and values of the bindings, or with a rule that was renamed before. Variables are the same if their
full names are. -/
structure Application.IsFresh (before : List Application) (application : Application) : Prop where
  goal : ∀ v ∈ application.renamed.vars, application.goal.Over (·.name ≠ v.name)
  bindings : ∀ v ∈ application.renamed.vars, application.bindings.Over (·.name ≠ v.name)
  earlier : ∀ v ∈ application.renamed.vars, ∀ other ∈ before,
    other.renamed.Over (·.name ≠ v.name)

/-- An application whose number is later than all that it is applied to is fresh. -/
theorem Application.Fits.isFresh {own : Nat} {application : Application} {before : List Application}
    (fits : application.Fits Variable.IsRead own)
    (others : ∀ other ∈ before,
      other.Fits Variable.IsRead own ∧ other.number < application.number) :
    application.IsFresh before := by
  obtain ⟨given, rules, later, proved, bindings⟩ := fits
  have differs {v : Variable} {n : Nat} (occurs : v ∈ application.renamed.vars)
      (bound : n < application.number) (w : Variable)
      (made : Variable.Made Variable.IsRead n own w) : w.name ≠ v.name := by
    obtain ⟨u, inside, rfl⟩ := Rule.mem_vars_mark occurs
    exact made.name_ne_mark (given u inside) bound
  refine ⟨fun v occurs => proved.mono (differs occurs later),
    fun v occurs => bindings.mono (differs occurs later), fun v occurs other member w inside => ?_⟩
  obtain ⟨otherFits, bound⟩ := others other member
  obtain ⟨u, known, rfl⟩ := Rule.mem_vars_mark inside
  exact differs occurs bound _ (.rule (otherFits.given u known) (Nat.le_refl _))

/-- An agent that is watched, the intentions that it has under way, and searches of its beliefs that
somebody has begun. Watching changes nothing: `Watch.Turn.unwatched` and `Site.exists_reached` say so
for the turns and the runs of the agent, `Course.search_solve` and `BeliefBase.next_search` for the
searches. -/
structure Site where
  watch : Watch
  intentions : List Intention
  streams : List Course

namespace Site

/-- What happens at a site. -/
inductive Turn (source : Variable → Prop) (environment : ActionTable → Prop) :
    Site → Site → Prop where
  /-- The agent takes a turn, with one of its intentions or with none. -/
  | turned (before behind : List Intention)
      (held : site.intentions = before ++ current.toList ++ behind)
      (turn : Watch.Turn source environment site.watch current later next) :
      Turn source environment site
        { site with watch := later, intentions := before ++ next.toList ++ behind }
  /-- An event comes from outside. -/
  | posted (trigger : Trigger) (known : trigger.literal.Over (site.watch.Known source)) :
      Turn source environment site
        { site with watch := ((Watch.quietly (Agent.post trigger)).run.run site.watch).2 }
  /-- The beliefs are changed, and the agent is not told. -/
  | edited (edit : BeliefBase.Edit) (given : ∀ rule, edit = .addRule rule → rule.Over source)
      (check : Bool) :
      Turn source environment site
        { site with watch.agent.beliefs := edit.perform check site.watch.agent.beliefs }
  /-- A search begins, whose question and bindings have variables that have come up. -/
  | opened (limits : Limits) (formula : Formula) (θ : Substitution)
      (question : formula.Over (site.watch.Known source))
      (bindings : θ.Over (site.watch.Known source)) :
      Turn source environment site
        { site with streams := Course.solve limits formula θ :: site.streams }
  /-- A search goes on to its next answer. -/
  | resumed (before behind : List Course) (held : site.streams = before ++ course :: behind)
      (followed : site.watch.agent.beliefs.follow course = (step, beliefs, applied)) :
      Turn source environment site
        { site with
          watch := ⟨{ site.watch.agent with beliefs }, site.watch.applied ++ applied⟩
          streams := before ++ step.rest ++ behind }

/-- What a site can come to, where all variables of authors have names as they are read. -/
inductive Reached (environment : ActionTable → Prop) : Site → Prop where
  | created (program : Program) (read : program.Over Variable.IsRead) {actions : ActionTable}
      (acts : environment actions) (name : String) (limits : Limits) (begun : Nat)
      (journal : Journal) :
      Reached environment ⟨⟨Agent.leaves (Agent.load program)
        { Agent.idle name limits program.plans actions begun with journal }, []⟩, [], []⟩
  | turned (before : Reached environment site)
      (turn : Turn Variable.IsRead environment site after) : Reached environment after

variable {source : Variable → Prop} {environment : ActionTable → Prop} {site after : Site}

/-- Every state that an agent reaches can be watched, with the rules that were applied on the way. -/
theorem exists_reached {limits : Limits} {agent : Agent} {current : Option Intention}
    (reachable : Agent.Reachable Variable.IsRead limits environment agent current) :
    ∃ applied, Reached environment ⟨⟨agent, applied⟩, current.toList, []⟩ := by
  induction reachable with
  | created program read acts name begun journal =>
    exact ⟨[], .created program read acts name limits begun journal⟩
  | @turned agent current later next before turn ih =>
    obtain ⟨applied, reached⟩ := ih
    obtain ⟨more, watched⟩ := Watch.exists_turn turn applied
    have turned := reached.turned (.turned [] [] (List.append_nil _).symm watched)
    rw [List.append_nil] at turned
    exact ⟨more, turned⟩

/-- The names of the agent, of its intentions and of all searches are in order. -/
structure InOrder (source : Variable → Prop) (site : Site) : Prop where
  named : site.watch.IsNamed source 0
  intentions : ∀ intention ∈ site.intentions,
    Agent.AllKnown (site.watch.Known source) intention.frames
  streams : ∀ course ∈ site.streams,
    course.Draws source site.watch.agent.renamings site.watch.agent.beliefs.renamings

theorem InOrder.later (order : InOrder source site) {later : Watch}
    (onwards : site.watch.Precedes later) (named : later.IsNamed source 0) :
    InOrder source { site with watch := later } where
  named := named
  intentions intention member := (order.intentions intention member).mono onwards.known
  streams course member := (order.streams course member).mono onwards.rules onwards.own

theorem InOrder.turn (order : InOrder source site)
    (replies : ∀ actions, environment actions → actions.RepliesGround)
    (turn : Turn source environment site after) : InOrder source after := by
  cases turn with
  | @turned current later next _ before behind held turn =>
    have held' : ∀ intention, intention ∈ before ∨ current = some intention ∨ intention ∈ behind →
        Agent.AllKnown (site.watch.Known source) intention.frames := by
      intro intention member
      exact order.intentions intention (by simpa [held] using member)
    obtain ⟨⟨named, known⟩, onwards⟩ := Watch.InOrder.turn
      ⟨order.named, fun intention own => held' intention (.inr (.inl own))⟩ replies turn
    refine { order.later onwards named with intentions := fun intention member => ?_ }
    simp only [List.append_assoc, List.mem_append, Option.mem_toList] at member
    rcases member with first | own | last
    · exact (held' intention (.inl first)).mono onwards.known
    · exact known intention own
    · exact (held' intention (.inr (.inr last))).mono onwards.known
  | posted trigger known =>
    have posted := Watch.ensures_post order.named known
    exact order.later posted.later posted.named
  | edited edit given check =>
    have counted := site.watch.agent.beliefs.renamings_perform check edit
    obtain ⟨plans, beliefs, rules, events, replies⟩ := order.named.agent
    have changed : Agent.IsNamed source { site.watch.agent with
        beliefs := edit.perform check site.watch.agent.beliefs } := by
      refine ⟨plans, beliefs.perform check edit, fun rule member => ?_, fun event member => ?_,
        replies⟩
      · exact (BeliefBase.mem_rules_perform member).elim (rules rule) (given rule)
      · exact (events event member).mono fun v made => made.mono counted.ge (Nat.le_refl _)
    exact order.later ⟨counted.ge, Nat.le_refl _⟩
      (order.named.withAgent changed counted (Nat.le_refl _))
  | opened limits formula θ question bindings =>
    exact { order with
      streams := List.forall_mem_cons.mpr ⟨Course.draws_solve question bindings, order.streams⟩ }
  | @resumed course step beliefs applied _ before behind held followed =>
    have going := (Watch.isNamed_beliefs order.named).follow (order.streams course (by simp [held]))
    rw [followed] at going
    obtain ⟨applies, found⟩ := going
    have onwards : site.watch.Precedes
        ⟨{ site.watch.agent with beliefs }, site.watch.applied ++ applied⟩ :=
      ⟨applies.later, Nat.le_refl _⟩
    have later := order.later onwards (order.named.applied applies)
    refine { later with streams := fun other member => ?_ }
    simp only [List.append_assoc, List.mem_append] at member
    rcases member with first | own | last
    · exact later.streams other (by simp [held, first])
    · cases step with
      | found θ rest =>
        rw [List.mem_singleton.mp own]
        exact (found θ rest rfl).2
      | ended | failed fault => cases own
    · exact later.streams other (by simp [held, last])

theorem Reached.inOrder (replies : ∀ actions, environment actions → actions.RepliesGround)
    (reached : Reached environment site) : InOrder Variable.IsRead site := by
  induction reached with
  | created program read acts name limits begun journal =>
    have idle : Agent.IsNamed Variable.IsRead
        { Agent.idle name limits program.plans _ begun with journal } :=
      ⟨read.plans, BeliefBase.ordered_empty, nofun, nofun, replies _ acts⟩
    have loaded := Watch.ensures_load (Watch.isNamed_started idle) read
    exact ⟨loaded.named, nofun, nofun⟩
  | turned before turn ih => exact ih.turn replies turn

/-- Every rule that is renamed apart is noted with its number, and its renamed variables are fresh:
they occur neither in the literal that is proved, nor in the keys or values of the bindings, nor in a
rule that was renamed before. -/
theorem Reached.rules_fresh (replies : ∀ actions, environment actions → actions.RepliesGround)
    (reached : Reached environment site) :
    site.watch.applied.map Application.number =
        List.range' 1 site.watch.agent.beliefs.renamings ∧
      ∀ before application behind, site.watch.applied = before ++ application :: behind →
        application.IsFresh before := by
  obtain ⟨-, counted, numbers, fits⟩ := (reached.inOrder replies).named
  rw [Nat.zero_add] at counted numbers
  refine ⟨counted ▸ numbers, fun before application behind divided => ?_⟩
  rw [divided] at fits numbers
  have increasing := List.pairwise_lt_range' (s := 1) (n := (before ++ application :: behind).length)
  rw [← numbers, List.map_append, List.pairwise_append] at increasing
  refine (fits application (by simp)).isFresh fun other member => ⟨fits other (by simp [member]), ?_⟩
  exact increasing.2.2 _ (List.mem_map_of_mem member) _ (by simp)

/-- A rule for `p(Y)`, and a plan for `g(X)` that applies where `p(X)` holds. -/
def ruled : Program where
  beliefs := []
  rules := [⟨.compound "p" [.var ⟨"Y", []⟩], .literal Term.truth⟩]
  goals := [.compound "g" [.var ⟨"A", []⟩]]
  plans := [⟨.goal (.compound "g" [.var ⟨"X", []⟩]), .literal (.compound "p" [.var ⟨"X", []⟩]), [],
    none⟩]

theorem over_ruled : ruled.Over Variable.IsRead := by
  refine ⟨fun rule member v occurs => ?_, fun goal member v occurs => ?_,
    fun plan member v occurs => ?_⟩
  · rw [List.mem_singleton.mp member] at occurs
    rw [List.mem_singleton.mp occurs]
    exact ⟨.inl ⟨rfl, by decide⟩, by decide⟩
  · rw [List.mem_singleton.mp member] at occurs
    rw [List.mem_singleton.mp occurs]
    exact ⟨.inl ⟨rfl, by decide⟩, by decide⟩
  · rw [List.mem_singleton.mp member] at occurs
    have onlyX : v ∈ [⟨"X", []⟩, ⟨"X", []⟩] := occurs
    rcases List.mem_pair.mp onlyX with rfl | rfl <;>
      exact ⟨.inl ⟨rfl, by decide⟩, by decide⟩

/-- The rule is applied for the event `g(A)`, whose variable is renamed, and then for a search that
asks for `p(Y)` with the rule's own variable. -/
theorem exists_ruled : ∃ site first second, Reached (Eq .empty) site ∧
    site.watch.applied = [first, second] ∧
    first.bindings = Substitution.empty.insert ⟨"X", []⟩ (.var ⟨"A", ["e1"]⟩) ∧
    second.goal = .compound "p" [.var ⟨"Y", []⟩] := by
  have created : Reached (Eq .empty) _ :=
    .created ruled over_ruled rfl "a" ⟨1, 2, true⟩ 0 ⟨[], [], []⟩
  have began := created.turned (.turned [] [] rfl (.began rfl rfl rfl))
  have read : Variable.IsRead ⟨"Y", []⟩ := ⟨.inl ⟨rfl, by decide⟩, by decide⟩
  have opened := began.turned (.opened ⟨1, 2, true⟩ (.literal (.compound "p" [.var ⟨"Y", []⟩]))
    .empty (fun v occurs => .given (List.mem_singleton.mp occurs ▸ read)) over_empty)
  have resumed := opened.turned (.resumed [] [] rfl rfl)
  exact ⟨_, _, _, resumed, rfl, rfl, rfl⟩

/-- Both times its variable is a fresh one. -/
theorem Reached.ruled_fresh : ∃ site first second, Reached (Eq .empty) site ∧
    site.watch.applied = [first, second] ∧ first.IsFresh [] ∧ second.IsFresh [first] := by
  obtain ⟨site, first, second, reached, shape, -⟩ := exists_ruled
  have replies : ∀ actions, ActionTable.empty = actions → actions.RepliesGround := by
    rintro _ rfl name action found
    cases found
  have fresh := (Reached.rules_fresh replies reached).2
  exact ⟨site, first, second, reached, shape, fresh [] first [second] shape,
    fresh [first] second [] shape⟩

end Site

end AgentSpeak
