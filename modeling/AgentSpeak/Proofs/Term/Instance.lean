import AgentSpeak.Term.Printer

namespace AgentSpeak.Term

/-- Terms are built from constants and variables by compounding. -/
@[elab_as_elim]
theorem structural {motive : Term → Prop} (term : Term)
    (atom : ∀ name, motive (.atom name)) (number : ∀ value, motive (.number value))
    (string : ∀ value, motive (.string value)) (var : ∀ v, motive (.var v))
    (compound : ∀ functor arguments, (∀ argument ∈ arguments, motive argument) →
      motive (.compound functor arguments)) : motive term := by
  refine Term.rec (motive_2 := fun terms => ∀ argument ∈ terms, motive argument)
    atom number string var (fun functor arguments each => compound functor arguments each)
    ?_ (fun first rest head tail => ?_) term
  · intro argument member
    cases member
  · intro argument member
    rcases List.mem_cons.mp member with same | later
    · exact same ▸ head
    · exact tail argument later

/-- A property of terms that passes from a compound term to its arguments. -/
def Hereditary (property : Term → Prop) : Prop :=
  ∀ functor arguments, property (.compound functor arguments) →
    ∀ argument ∈ arguments, property argument

@[simp] theorem bind_var (f : Variable → Term) (v : Variable) : (Term.var v).bind f = f v := rfl

@[simp] theorem bind_atom (f : Variable → Term) (name : String) :
    (Term.atom name).bind f = .atom name := rfl

@[simp] theorem bind_number (f : Variable → Term) (value : Number) :
    (Term.number value).bind f = .number value := rfl

@[simp] theorem bind_string (f : Variable → Term) (value : String) :
    (Term.string value).bind f = .string value := rfl

@[simp] theorem bind_compound (f : Variable → Term) (functor : String) (arguments : List Term) :
    (Term.compound functor arguments).bind f = .compound functor (arguments.map (bind f)) :=
  congrArg (compound functor) (bindAll_eq_map f arguments)

@[simp] theorem vars_atom (name : String) : (Term.atom name).vars = [] := rfl

@[simp] theorem vars_number (value : Number) : (Term.number value).vars = [] := rfl

@[simp] theorem vars_string (value : String) : (Term.string value).vars = [] := rfl

@[simp] theorem vars_var (v : Variable) : (Term.var v).vars = [v] := rfl

@[simp] theorem vars_compound (functor : String) (arguments : List Term) :
    (Term.compound functor arguments).vars = arguments.flatMap vars :=
  varsAll_eq_flatMap arguments

theorem bind_congr {f g : Variable → Term} {term : Term} (same : ∀ v ∈ term.vars, f v = g v) :
    term.bind f = term.bind g := by
  induction term using structural with
  | atom name => simp
  | number value => simp
  | string value => simp
  | var v => simpa using same v (by simp)
  | compound functor arguments ih =>
    rw [bind_compound, bind_compound]
    congr 1
    apply List.map_congr_left
    intro argument member
    apply ih argument member
    intro v occurs
    exact same v (by rw [vars_compound]; exact List.mem_flatMap.mpr ⟨argument, member, occurs⟩)

/-- Maps that make a term the same agree on its variables. -/
theorem eq_of_bind_eq {f g : Variable → Term} {term : Term} (same : term.bind f = term.bind g) :
    ∀ v ∈ term.vars, f v = g v := by
  induction term using structural with
  | atom name => simp
  | number value => simp
  | string value => simp
  | var v => simpa using same
  | compound functor arguments ih =>
    simp only [bind_compound, compound.injEq, true_and, List.map_inj_left] at same
    intro v member
    obtain ⟨argument, inside, occurs⟩ := List.mem_flatMap.mp (vars_compound _ _ ▸ member)
    exact ih argument inside (same argument inside) v occurs

theorem bind_bind (f g : Variable → Term) (term : Term) :
    (term.bind f).bind g = term.bind fun v => (f v).bind g := by
  induction term using structural with
  | atom name => simp
  | number value => simp
  | string value => simp
  | var v => simp
  | compound functor arguments ih =>
    simp only [bind_compound, List.map_map, compound.injEq, true_and]
    exact List.map_congr_left fun argument member => ih argument member

theorem bind_self {f : Variable → Term} {term : Term} (fixed : ∀ v ∈ term.vars, f v = .var v) :
    term.bind f = term := by
  induction term using structural with
  | atom name => simp
  | number value => simp
  | string value => simp
  | var v => simpa using fixed v (by simp)
  | compound functor arguments ih =>
    rw [bind_compound]
    have kept : arguments.map (bind f) = arguments.map id := by
      apply List.map_congr_left
      intro argument member
      apply ih argument member
      intro v occurs
      exact fixed v (by rw [vars_compound]; exact List.mem_flatMap.mpr ⟨argument, member, occurs⟩)
    rw [kept, List.map_id]

theorem mem_vars_bind {f : Variable → Term} {term : Term} {v : Variable} :
    v ∈ (term.bind f).vars ↔ ∃ w ∈ term.vars, v ∈ (f w).vars := by
  induction term using structural with
  | atom name => simp
  | number value => simp
  | string value => simp
  | var w => simp
  | compound functor arguments ih =>
    simp only [bind_compound, vars_compound, List.mem_flatMap, List.mem_map]
    constructor
    · rintro ⟨_, ⟨argument, member, rfl⟩, occurs⟩
      obtain ⟨w, inside, reached⟩ := (ih argument member).mp occurs
      exact ⟨w, ⟨argument, member, inside⟩, reached⟩
    · rintro ⟨w, ⟨argument, member, inside⟩, reached⟩
      exact ⟨_, ⟨argument, member, rfl⟩, (ih argument member).mpr ⟨w, inside, reached⟩⟩

theorem isGroundAll_iff (terms : List Term) :
    isGroundAll terms = true ↔ ∀ term ∈ terms, term.isGround = true := by
  induction terms with
  | nil => exact iff_of_true rfl (List.forall_mem_nil _)
  | cons term rest ih =>
    rw [List.forall_mem_cons, ← ih]
    exact Bool.and_eq_true_iff

/-- Ground terms are those without variables. -/
theorem isGround_iff {term : Term} : term.isGround = true ↔ term.vars = [] := by
  induction term using structural with
  | atom name => exact iff_of_true rfl rfl
  | number value => exact iff_of_true rfl rfl
  | string value => exact iff_of_true rfl rfl
  | var v => exact iff_of_false Bool.false_ne_true (List.cons_ne_nil _ _)
  | compound functor arguments ih =>
    rw [vars_compound, List.flatMap_eq_nil_iff]
    refine (isGroundAll_iff arguments).trans ?_
    exact forall_congr' fun argument => forall_congr' fun member => ih argument member

theorem bind_of_isGround {term : Term} (ground : term.isGround = true) (f : Variable → Term) :
    term.bind f = term := by
  apply bind_self
  rw [isGround_iff.mp ground]
  intro v member
  cases member

theorem isGround_bind {f : Variable → Term} {term : Term}
    (ground : ∀ v ∈ term.vars, (f v).isGround = true) : (term.bind f).isGround = true := by
  rw [isGround_iff, List.eq_nil_iff_forall_not_mem]
  intro v member
  obtain ⟨w, inside, reached⟩ := mem_vars_bind.mp member
  rw [isGround_iff.mp (ground w inside)] at reached
  cases reached

theorem indicator?_bind {f : Variable → Term} {term : Term} {key : Indicator}
    (literal : term.indicator? = some key) : (term.bind f).indicator? = some key := by
  cases term <;> simp_all [indicator?]

/-- All variables of a term are allowed. -/
def Over (allowed : Variable → Prop) (term : Term) : Prop :=
  ∀ v ∈ term.vars, allowed v

theorem hereditary_over (allowed : Variable → Prop) : Hereditary (Over allowed) := by
  intro functor arguments whole argument member v occurs
  apply whole
  rw [vars_compound]
  exact List.mem_flatMap.mpr ⟨argument, member, occurs⟩

@[simp] theorem over_var {allowed : Variable → Prop} {v : Variable} :
    (var v).Over allowed ↔ allowed v := by
  simp [Over]

theorem Over.mono {allowed wider : Variable → Prop} {term : Term} (ranges : term.Over allowed)
    (more : ∀ v, allowed v → wider v) : term.Over wider :=
  fun v member => more v (ranges v member)

theorem over_bind {allowed : Variable → Prop} {f : Variable → Term} {term : Term}
    (values : ∀ v ∈ term.vars, (f v).Over allowed) : (term.bind f).Over allowed := by
  intro v occurs
  obtain ⟨w, inside, reached⟩ := mem_vars_bind.mp occurs
  exact values w inside v reached

theorem over_mark {allowed : Variable → Prop} {marks : List String} {term : Term}
    (each : ∀ v ∈ term.vars, allowed (v.mark marks)) : (term.mark marks).Over allowed :=
  over_bind fun v inside => over_var.mpr (each v inside)

theorem over_of_isGround {allowed : Variable → Prop} {term : Term}
    (ground : term.isGround = true) : term.Over allowed := by
  intro v member
  rw [isGround_iff.mp ground] at member
  cases member

theorem eq_atom_of_bind {f : Variable → Term} {term : Term} {name : String}
    (literal : term.indicator?.isSome = true) (same : term.bind f = .atom name) :
    term = .atom name := by
  cases term with
  | var v => cases literal
  | atom own => simpa using same
  | number value => cases literal
  | string value => cases literal
  | compound functor arguments => simp at same

/-- A text depends on the numbers, and those stay when variables take the place of variables. -/
theorem isWritable_bind {σ : Variable → Term} (each : ∀ v, (σ v).isWritable = true) (term : Term) :
    (term.bind σ).isWritable = term.isWritable := by
  induction term using structural with
  | atom name | number value | string value => rfl
  | var v => exact each v
  | compound functor arguments ih =>
    rw [bind_compound, isWritable_compound, isWritable_compound, List.all_map, Bool.eq_iff_iff,
      List.all_eq_true, List.all_eq_true]
    exact forall₂_congr fun argument member => Bool.eq_iff_iff.mp (ih argument member)

theorem size_pos (term : Term) : 0 < term.size := by
  cases term <;> simp [size]

theorem size_lt_compound (functor : String) {arguments : List Term} {argument : Term}
    (member : argument ∈ arguments) : argument.size < (Term.compound functor arguments).size := by
  have bound : argument.size ≤ sizeAll arguments := by
    induction arguments with
    | nil => cases member
    | cons first rest ih =>
      rw [sizeAll]
      rcases List.mem_cons.mp member with same | later
      · subst same
        exact Nat.le_add_right _ _
      · exact Nat.le_trans (ih later) (Nat.le_add_left _ _)
  rw [size]
  exact Nat.lt_succ_of_le bound

end AgentSpeak.Term
