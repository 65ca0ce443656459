import AgentSpeak.Proofs.Formula.Instance
import AgentSpeak.Proofs.Substitution.Resolution
import AgentSpeak.Proofs.Substitution.Renaming
import AgentSpeak.Proofs.Term.Correspondence

/-!
Bindings under a correspondence of names. Nothing that is done with terms and bindings depends on
variables that do not occur in them, so what holds of maps that keep all variables apart holds of
correspondences that know those that occur.
-/

namespace AgentSpeak

namespace Substitution

variable {π ρ : Variable → Variable} {θ θ' : Substitution} {s t : Term} {v : Variable}
  {allowed wider : Variable → Prop}

/-- The variables of a substitution, those of hidden bindings included. -/
def vars (θ : Substitution) : List Variable :=
  θ.bindings.flatMap fun binding => binding.1 :: binding.2.vars

/-- All variables of a substitution are allowed. -/
def Inside (allowed : Variable → Prop) (θ : Substitution) : Prop :=
  ∀ v ∈ θ.vars, allowed v

theorem Inside.mono (inside : θ.Inside allowed) (more : ∀ v, allowed v → wider v) :
    θ.Inside wider :=
  fun v member => more v (inside v member)

theorem inside_empty : empty.Inside allowed :=
  fun _ member => nomatch member

theorem Inside.over (inside : θ.Inside allowed) : θ.Over allowed where
  bound v _ found := inside v (List.mem_flatMap.mpr ⟨_, mem_of_find? found, List.mem_cons_self⟩)
  values _ _ found w member :=
    inside w (List.mem_flatMap.mpr ⟨_, mem_of_find? found, List.mem_cons_of_mem _ member⟩)

theorem Inside.without (inside : θ.Inside allowed) (fresh : List Variable) :
    (θ.without fresh).Inside allowed := by
  intro v member
  obtain ⟨binding, kept, occurs⟩ := List.mem_flatMap.mp member
  exact inside v (List.mem_flatMap.mpr ⟨binding, List.mem_of_mem_filter kept, occurs⟩)

theorem ext_bindings (same : θ.bindings = θ'.bindings) : θ = θ' := by
  obtain ⟨bindings, weight, weighs⟩ := θ
  obtain ⟨bindings', weight', weighs'⟩ := θ'
  obtain rfl : bindings = bindings' := same
  rw [← weighs'] at weighs
  subst weighs
  rfl

theorem rename_congr (same : ∀ v ∈ θ.vars, π v = ρ v) : θ.rename π = θ.rename ρ := by
  refine ext_bindings (List.map_congr_left fun binding member => ?_)
  have own := fun v occurs => same v (List.mem_flatMap.mpr ⟨binding, member, occurs⟩)
  rw [own binding.1 List.mem_cons_self,
    Term.rename_congr fun v occurs => own v (List.mem_cons_of_mem _ occurs)]

theorem rename_self (fixed : ∀ v ∈ θ.vars, π v = v) : θ.rename π = θ := by
  refine ext_bindings ((List.map_congr_left fun binding member => ?_).trans (List.map_id _))
  have own := fun v occurs => fixed v (List.mem_flatMap.mpr ⟨binding, member, occurs⟩)
  rw [own binding.1 List.mem_cons_self,
    Term.rename_self fun v occurs => own v (List.mem_cons_of_mem _ occurs)]
  rfl

theorem without_rename (one : Function.Injective π) (θ : Substitution) (fresh : List Variable) :
    (θ.rename π).without (fresh.map π) = (θ.without fresh).rename π := by
  refine ext_bindings (List.filter_map.trans (congrArg _ (List.filter_congr fun binding _ => ?_)))
  refine congrArg not ?_
  rw [Bool.eq_iff_iff, List.contains_iff_mem, List.contains_iff_mem]
  exact List.mem_map_of_injective one

theorem fixed_of_rename (same : θ.rename π = θ) : ∀ v ∈ θ.vars, π v = v := by
  intro v member
  obtain ⟨binding, inside, occurs⟩ := List.mem_flatMap.mp member
  have each := List.map_inj_left.mp ((congrArg bindings same).trans (List.map_id _).symm)
    binding inside
  rcases List.mem_cons.mp occurs with rfl | occurs
  · exact congrArg Prod.fst each
  · have own := congrArg (fun binding => binding.2.vars) each
    dsimp only at own
    rw [Term.vars_rename] at own
    exact List.map_inj_left.mp (own.trans (List.map_id _).symm) v occurs

/-- A unifier has no variables but those of the terms and of the bindings that it extends: whatever
moves the others moves nothing in it. -/
theorem vars_of_unify? {check : Bool} (found : θ.unify? check s t = some θ') :
    θ'.vars ⊆ s.vars ++ t.vars ++ θ.vars := by
  intro v member
  by_contra absent
  obtain ⟨π, one, own, moved⟩ :=
    Variable.exists_extension id (s.vars ++ t.vars ++ θ.vars) fun _ _ _ _ same => same
  have left : s.rename π = s := Term.rename_self fun u occurs =>
    own u (List.mem_append_left _ (List.mem_append_left _ occurs))
  have right : t.rename π = t := Term.rename_self fun u occurs =>
    own u (List.mem_append_left _ (List.mem_append_right _ occurs))
  have bindings : θ.rename π = θ :=
    rename_self fun u occurs => own u (List.mem_append_right _ occurs)
  have renamed := unify?_rename one check s t θ
  rw [left, right, bindings, found, Option.map_some, Option.some.injEq] at renamed
  exact (moved v absent).1 (fixed_of_rename renamed.symm v member)

theorem Inside.unify? {check : Bool} (inside : θ.Inside allowed) (left : s.Over allowed)
    (right : t.Over allowed) (found : θ.unify? check s t = some θ') : θ'.Inside allowed := by
  intro v member
  rcases List.mem_append.mp (vars_of_unify? found member) with written | bound
  · rcases List.mem_append.mp written with first | second
    · exact left v first
    · exact right v second
  · exact inside v bound

end Substitution

/-- The values that answers give to some variables, as texts. -/
def Substitution.texts (wanted : List Variable) (θ : Substitution) : List (String × String) :=
  (θ.restrict wanted).map fun binding => (binding.1.name, binding.2.render)

/-- Two faults of one kind and, if texts matter, with the same message. -/
structure Fault.Alike (texts : Prop) (fault other : Fault) : Prop where
  kind : other.kind = fault.kind
  message : texts → other.message = fault.message

theorem Fault.Alike.refl (texts : Prop) (fault : Fault) : fault.Alike texts fault :=
  ⟨rfl, fun _ => rfl⟩

theorem Fault.Alike.failsIntention {texts : Prop} {fault other : Fault}
    (alike : fault.Alike texts other) : other.failsIntention = fault.failsIntention := by
  unfold Fault.failsIntention
  rw [alike.kind]

/-- If texts matter, alike faults show the same, if there are any. -/
theorem Fault.Alike.shown {fault other : Option Fault}
    (alike : Option.Rel (Fault.Alike True) fault other) :
    other.map (fun fault => (fault.kind, fault.message)) =
      fault.map fun fault => (fault.kind, fault.message) := by
  cases alike with
  | none => rfl
  | some alike => exact congrArg some (Prod.ext alike.kind (alike.message trivial))

/-- Two outcomes: either both computations fail alike, or both have results, which are related. -/
inductive Concur {α β : Type} (texts : Prop) (related : α → β → Prop) :
    Except Fault α → Except Fault β → Prop where
  | ok (own : related value value') : Concur texts related (.ok value) (.ok value')
  | error (alike : fault.Alike texts fault') : Concur texts related (.error fault) (.error fault')

theorem Concur.mono {α β : Type} {texts : Prop} {related weaker : α → β → Prop}
    {result : Except Fault α} {result' : Except Fault β}
    (agree : Concur texts related result result')
    (weakens : ∀ value value', related value value' → weaker value value') :
    Concur texts weaker result result' := by
  cases agree with
  | ok own => exact .ok (weakens _ _ own)
  | error alike => exact .error alike

theorem Concur.bind {α β γ δ : Type} {texts : Prop} {related : α → β → Prop} {other : γ → δ → Prop}
    {result : Except Fault α} {result' : Except Fault β} {next : α → Except Fault γ}
    {next' : β → Except Fault δ} (first : Concur texts related result result')
    (rest : ∀ value value', related value value' → Concur texts other (next value) (next' value')) :
    Concur texts other (result >>= next) (result' >>= next') := by
  cases first with
  | ok own => exact rest _ _ own
  | error alike => exact .error alike

namespace Correspondence

variable {texts : Prop} (names : Correspondence texts) {θ : Substitution} {s t : Term}

/-- The second term is the first one with the other names. -/
structure Terms (term term' : Term) : Prop where
  known : term.Over names.knows
  same : term' = term.rename names.name

/-- The second bindings are the first ones with the other names. -/
structure Bindings (θ θ' : Substitution) : Prop where
  inside : θ.Inside names.knows
  same : θ' = θ.rename names.name

section

variable {names} {later earlier : Correspondence texts}

theorem Extends.terms {term term' : Term} (wider : later.Extends earlier)
    (own : earlier.Terms term term') : later.Terms term term' :=
  ⟨own.known.mono fun _ => wider.knows, own.same.trans
    (Term.rename_congr fun v member => (wider.name (own.known v member)).symm)⟩

theorem Extends.bindings {θ θ' : Substitution} (wider : later.Extends earlier)
    (own : earlier.Bindings θ θ') : later.Bindings θ θ' :=
  ⟨own.inside.mono fun _ => wider.knows, own.same.trans
    (Substitution.rename_congr fun v member => (wider.name (own.inside v member)).symm)⟩

end

/-- A map of all variables that agrees with a correspondence on two terms and some bindings. -/
private theorem exists_map (left : s.Over names.knows) (right : t.Over names.knows)
    (inside : θ.Inside names.knows) : ∃ π, Function.Injective π ∧
      (texts → ∀ v, (π v).base = v.base) ∧ s.Over (fun v => π v = names.name v) ∧
      t.Over (fun v => π v = names.name v) ∧ θ.Inside fun v => π v = names.name v := by
  obtain ⟨π, one, own, written⟩ := names.exists_total (s.vars ++ t.vars ++ θ.vars)
    (List.forall_mem_append.mpr ⟨List.forall_mem_append.mpr ⟨left, right⟩, inside⟩)
  obtain ⟨both, bound⟩ := List.forall_mem_append.mp own
  obtain ⟨first, second⟩ := List.forall_mem_append.mp both
  exact ⟨π, one, written, first, second, bound⟩

theorem unify?_name (left : s.Over names.knows) (right : t.Over names.knows)
    (inside : θ.Inside names.knows) (check : Bool) :
    (θ.rename names.name).unify? check (s.rename names.name) (t.rename names.name) =
      (θ.unify? check s t).map (Substitution.rename names.name) := by
  obtain ⟨π, one, -, first, second, bound⟩ := names.exists_map left right inside
  rw [← Term.rename_congr first, ← Term.rename_congr second, ← Substitution.rename_congr bound,
    Substitution.unify?_rename one]
  exact Option.map_congr fun θ' found =>
    Substitution.rename_congr (bound.unify? first second found)

/-- Corresponding terms unify on both sides or on none, and the unifiers correspond. -/
theorem unify?_related {s' t' : Term} {θ' : Substitution} (left : names.Terms s s')
    (right : names.Terms t t') (bindings : names.Bindings θ θ') (check : Bool) :
    Option.Rel names.Bindings (θ.unify? check s t) (θ'.unify? check s' t') := by
  rw [left.same, right.same, bindings.same,
    names.unify?_name left.known right.known bindings.inside]
  cases found : θ.unify? check s t with
  | none => exact .none
  | some extended => exact .some ⟨bindings.inside.unify? left.known right.known found, rfl⟩

theorem walk_name (own : t.Over names.knows) (inside : θ.Inside names.knows) :
    (θ.rename names.name).walk (t.rename names.name) = (θ.walk t).rename names.name := by
  obtain ⟨π, one, -, first, -, bound⟩ := names.exists_map own own inside
  rw [← Term.rename_congr first, ← Substitution.rename_congr bound,
    Substitution.walk_rename one, Term.rename_congr (bound.over.walk first)]

theorem apply_name (own : t.Over names.knows) (inside : θ.Inside names.knows) :
    (θ.rename names.name).apply (t.rename names.name) = (θ.apply t).rename names.name := by
  obtain ⟨π, one, -, first, -, bound⟩ := names.exists_map own own inside
  rw [← Term.rename_congr first, ← Substitution.rename_congr bound,
    Substitution.apply_rename one, Term.rename_congr (bound.over.apply first)]

/-- Without corresponding variables, corresponding bindings correspond. -/
theorem without_related {θ' : Substitution} (bindings : names.Bindings θ θ')
    {fresh : List Variable} (known : ∀ v ∈ fresh, names.knows v) :
    names.Bindings (θ.without fresh) (θ'.without (fresh.map names.name)) := by
  refine ⟨bindings.inside.without fresh, ?_⟩
  obtain ⟨π, one, own, -⟩ := names.exists_total (fresh ++ θ.vars)
    (List.forall_mem_append.mpr ⟨known, bindings.inside⟩)
  obtain ⟨listed, bound⟩ := List.forall_mem_append.mp own
  rw [bindings.same, ← List.map_congr_left listed, ← Substitution.rename_congr bound,
    Substitution.without_rename one]
  exact Substitution.rename_congr (Substitution.Inside.without bound fresh)

/-- A fault that names a term is like the one that names the corresponding term. -/
theorem alike_name {describes : Term → Fault}
    (renames : ∀ π term, describes (Term.rename π term) = (describes term).rename π)
    (own : t.Over names.knows) : (describes t).Alike texts (describes (t.rename names.name)) := by
  obtain ⟨π, -, written, first, -⟩ := names.exists_map own own Substitution.inside_empty
  rw [← Term.rename_congr first, renames]
  exact ⟨Fault.kind_rename π _, fun shown => Fault.message_rename (written shown) _⟩

theorem resolve_name (own : t.Over names.knows) (inside : θ.Inside names.knows) :
    Concur texts names.Terms (θ.resolve t)
      ((θ.rename names.name).resolve (t.rename names.name)) := by
  obtain ⟨π, one, written, first, -, bound⟩ := names.exists_map own own inside
  rw [← Term.rename_congr first, ← Substitution.rename_congr bound,
    Substitution.resolve_rename one]
  cases done : θ.resolve t with
  | error fault =>
    exact .error ⟨fault.kind_rename π, fun shown => Fault.message_rename (written shown) fault⟩
  | ok value =>
    exact .ok ⟨inside.over.resolve own done, Term.rename_congr (bound.over.resolve first done)⟩

theorem compare_name (left : s.Over names.knows) (right : t.Over names.knows)
    (inside : θ.Inside names.knows) (relation : Relation) :
    Concur texts (fun holds holds' => holds' = holds) (θ.compare relation s t)
      ((θ.rename names.name).compare relation (s.rename names.name) (t.rename names.name)) := by
  obtain ⟨π, one, written, first, second, bound⟩ := names.exists_map left right inside
  rw [← Term.rename_congr first, ← Term.rename_congr second, ← Substitution.rename_congr bound,
    Substitution.compare_rename one]
  cases θ.compare relation s t with
  | error fault =>
    exact .error ⟨fault.kind_rename π, fun shown => Fault.message_rename (written shown) fault⟩
  | ok holds => exact .ok rfl

/-- If texts matter, corresponding bindings show the same of variables that have no other name. -/
theorem texts_name (shown : texts) (inside : θ.Inside names.knows) {wanted : List Variable}
    (known : ∀ v ∈ wanted, names.knows v) (fixed : ∀ v ∈ wanted, names.name v = v) :
    (θ.rename names.name).texts wanted = θ.texts wanted := by
  obtain ⟨π, one, own, written⟩ := names.exists_total (wanted ++ θ.vars)
    (List.forall_mem_append.mpr ⟨known, inside⟩)
  obtain ⟨asked, bound⟩ := List.forall_mem_append.mp own
  rw [← Substitution.rename_congr bound, Substitution.texts, Substitution.restrict_rename one θ
    fun v member => (asked v member).trans (fixed v member), List.map_map]
  refine List.map_congr_left fun binding _ => ?_
  simp only [Function.comp_apply, Term.render_rename (written shown)]

end Correspondence

end AgentSpeak
