import AgentSpeak.Agent.Action
import AgentSpeak.Proofs.Agent.Operations

namespace AgentSpeak

open Substitution

namespace Agent

variable {θ : Substitution} {allowed : Variable → Prop}

theorem over_ofList {items : List Term} (each : ∀ item ∈ items, item.Over allowed) :
    (Term.ofList items Term.nil).Over allowed := by
  induction items with
  | nil => exact Term.over_of_isGround rfl
  | cons item rest ih =>
    intro v member
    simp only [Term.ofList, List.foldr_cons, Term.cons, Term.vars_compound, List.flatMap_cons,
      List.flatMap_nil, List.append_nil, List.mem_append] at member
    rcases member with here | later
    · exact each item List.mem_cons_self v here
    · exact ih (fun other inside => each other (List.mem_cons_of_mem _ inside)) v later

private theorem mem_of_lookup {fields : List (String × HostValue)} {key : String}
    {value : HostValue} (found : fields.lookup key = some value) : (key, value) ∈ fields := by
  obtain ⟨before, after, split, -⟩ := List.lookup_eq_some_iff.mp found
  simp [split]

theorem over_of_bindFields {fields : List (String × HostValue)} {arguments : List Term}
    {answer : Substitution}
    (ground : ∀ field ∈ fields, ∀ term, field.2.toTerm = .ok term → term.isGround = true)
    (own : θ.Over allowed) (ranges : ∀ argument ∈ arguments, argument.Over allowed)
    (done : bindFields fields arguments θ = .ok (some answer)) : answer.Over allowed := by
  induction arguments generalizing θ with
  | nil =>
    cases done
    exact own
  | cons argument rest ih =>
    have restOver := fun other member => ranges other (List.mem_cons_of_mem argument member)
    cases argument with
    | atom name | number value | string value | compound functor arguments =>
      exact ih own restOver done
    | var v =>
      rw [bindFields] at done
      split at done
      next => exact ih own restOver done
      next value present =>
        split at done
        next => cases done
        next term converted =>
          split at done
          next extended bound =>
            have termGround := ground _ (mem_of_lookup present) term converted
            exact ih (own.unify? (ranges _ List.mem_cons_self) (Term.over_of_isGround termGround)
              bound) restOver done
          next => cases done

end Agent

namespace Watch

variable {source : Variable → Prop} {since : Nat} {watch : Watch} {θ : Substitution}
  {arguments : List Term}

/-- An action that succeeds gives bindings of known variables. -/
abbrev Binds (source : Variable → Prop) (since : Nat) (watch : Watch)
    (watched : WatchM (Option Substitution)) : Prop :=
  Ensures source since watch watched fun found after => ∀ answer, found = some answer →
    answer.Over (after.Known source)

theorem ensures_resolveAll (named : watch.IsNamed source since) (own : θ.Over (watch.Known source))
    (ranges : ∀ argument ∈ arguments, argument.Over (watch.Known source)) :
    Ensures source since watch (quietly (arguments.mapM (Agent.resolve θ))) fun resolved after =>
      watch = after ∧ ∀ value ∈ resolved, value.Over (watch.Known source) :=
  ensures_mapM named fun argument member =>
    (ensures_resolve named own (ranges argument member)).mono fun _ _ _ done => done.2

theorem ensures_displayed (named : watch.IsNamed source since) (own : θ.Over (watch.Known source))
    {term : Term} (ranges : term.Over (watch.Known source)) :
    Ensures source since watch (quietly (Agent.displayed θ term)) fun _ after =>
      watch = after ∧ True := by
  refine (ensures_resolve named own ranges).next ?_
  rintro resolved _ - - ⟨-, rfl, -⟩
  refine (ensures_written named _).next ?_
  rintro _ _ - - rfl
  exact ensures_quietly_pure named ⟨rfl, trivial⟩

theorem binds_performPrint (named : watch.IsNamed source since) (own : θ.Over (watch.Known source))
    (ranges : ∀ argument ∈ arguments, argument.Over (watch.Known source)) :
    Binds source since watch (quietly (Agent.performPrint arguments θ)) := by
  refine (ensures_mapM named fun argument member =>
    ensures_displayed named own (ranges argument member)).next ?_
  rintro texts _ - - ⟨rfl, -⟩
  refine (ensures_print named _).next fun _ after later named' _ => ?_
  refine ensures_quietly_pure named' ?_
  rintro _ ⟨⟩
  exact own.mono later.known

theorem binds_performMyName (named : watch.IsNamed source since)
    (own : θ.Over (watch.Known source))
    (ranges : ∀ argument ∈ arguments, argument.Over (watch.Known source)) :
    Binds source since watch (quietly (Agent.performMyName arguments θ)) := by
  unfold Agent.performMyName
  split
  next target =>
    refine (ensures_get named).next ?_
    rintro _ _ - - ⟨rfl, rfl⟩
    refine ensures_quietly_pure named fun answer found => ?_
    exact own.unify? (ranges target List.mem_cons_self) (Term.over_of_isGround rfl) found
  next => exact ensures_throw named _

theorem binds_performCount (named : watch.IsNamed source since) (own : θ.Over (watch.Known source))
    (ranges : ∀ argument ∈ arguments, argument.Over (watch.Known source)) :
    Binds source since watch (performCount arguments θ) := by
  unfold performCount
  split
  next query target =>
    refine (ensures_answers named (.literal (θ.apply query))
      (own.apply (ranges query (by simp))) own).bind fun found after later named' _ => ?_
    refine ensures_pure named' fun answer same => ?_
    exact (own.mono later.known).unify? ((ranges target (by simp)).mono later.known)
      (Term.over_of_isGround rfl) same
  next => exact ensures_throw named _

theorem binds_performFindall (named : watch.IsNamed source since)
    (own : θ.Over (watch.Known source))
    (ranges : ∀ argument ∈ arguments, argument.Over (watch.Known source)) :
    Binds source since watch (performFindall arguments θ) := by
  unfold performFindall
  split
  next template query target =>
    refine (ensures_answers named (.literal (θ.apply query))
      (own.apply (ranges query (by simp))) own).bind fun found after later named' answersOver => ?_
    refine (ensures_written named' _).bind ?_
    rintro _ _ - - rfl
    refine (ensures_report named' _ _).bind fun _ last more namedLast _ => ?_
    refine ensures_pure namedLast fun answer same => ?_
    have onwards := later.trans more
    refine (own.mono onwards.known).unify? ((ranges target (by simp)).mono onwards.known)
      (Agent.over_ofList ?_) same
    intro item member
    obtain ⟨found, inside, same⟩ := List.mem_map.mp member
    rw [← same]
    exact ((answersOver found inside).mono more.known).apply
      ((ranges template (by simp)).mono onwards.known)
  next => exact ensures_throw named _

theorem binds_performBuiltin (named : watch.IsNamed source since)
    (own : θ.Over (watch.Known source)) (name : String)
    (ranges : ∀ argument ∈ arguments, argument.Over (watch.Known source)) :
    Binds source since watch (performBuiltin name arguments θ) := by
  unfold performBuiltin
  split
  next => exact binds_performCount named own ranges
  next => exact binds_performFindall named own ranges
  next notCount notFindall =>
    unfold Agent.performBuiltin
    split
    next => exact binds_performPrint named own ranges
    next => exact binds_performPrint named own ranges
    next => exact ensures_quietly_pure named fun _ same => by cases same
    next => exact binds_performMyName named own ranges
    next => exact absurd rfl notCount
    next => exact absurd rfl notFindall
    next => exact ensures_throw named _

/-- What an environment action binds are variables of its arguments, to ground terms. -/
theorem binds_performUser (named : watch.IsNamed source since) (own : θ.Over (watch.Known source))
    (name : String) (ranges : ∀ argument ∈ arguments, argument.Over (watch.Known source)) :
    Binds source since watch (quietly (Agent.performUser name arguments θ)) := by
  refine (ensures_get named).next ?_
  rintro _ _ - - ⟨rfl, rfl⟩
  dsimp only
  split
  next => exact ensures_throw named _
  next action found =>
    refine (ensures_resolveAll named own ranges).next ?_
    rintro resolved _ - - ⟨rfl, resolvedOver⟩
    refine (ensures_record named _).next fun _ after later named' _ => ?_
    refine (ensures_ofExcept named' _).mono ?_
    rintro value _ - ⟨done, rfl⟩ answer rfl
    have ownLater := own.mono later.known
    unfold Agent.acceptReply at done
    split at done
    next =>
      cases done
      exact ownLater
    next success =>
      split at done <;> cases done
      exact ownLater
    next fields reply =>
      exact Agent.over_of_bindFields (named.agent.replies name action found resolved fields reply)
        ownLater (fun argument member => (resolvedOver argument member).mono later.known) done
    next => cases done

theorem binds_perform (named : watch.IsNamed source since) (own : θ.Over (watch.Known source))
    (kind : ActionKind) (name : String)
    (ranges : ∀ argument ∈ arguments, argument.Over (watch.Known source)) :
    Binds source since watch (perform kind name arguments θ) := by
  cases kind with
  | builtin => exact binds_performBuiltin named own name ranges
  | user => exact binds_performUser named own name ranges

end Watch

end AgentSpeak
