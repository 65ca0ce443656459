import AgentSpeak.Formula.Basic
import AgentSpeak.Proofs.Term.Instance
import AgentSpeak.Proofs.Term.Naming
import Mathlib.Data.List.Nodup

/-!
Numbers of wildcards. A text numbers its wildcards in the order in which they are read, so terms
that were read at different places differ in these numbers alone. Values put together of such terms
differ in these numbers alone too, if no wildcard occurs in two of their parts.
-/

namespace AgentSpeak

namespace Variable

/-- The number of a wildcard. -/
def number? (v : Variable) : Option Nat :=
  match v.marks with
  | [text] =>
      let n := Nat.ofDigitChars 10 text.toList 0
      if v = wildcard n then some n else none
  | _ => none

/-- A variable with another number, if it is a wildcard. -/
def renumber (f : Nat → Nat) (v : Variable) : Variable :=
  match v.number? with
  | some n => wildcard (f n)
  | none => v

variable {v : Variable} {n : Nat} {f g : Nat → Nat}

@[simp] theorem number?_wildcard (n : Nat) : (wildcard n).number? = some n := by
  have read : Nat.ofDigitChars 10 (toString n).toList 0 = n := by
    show Nat.ofDigitChars 10 (Nat.repr n).toList 0 = n
    rw [Nat.toList_repr, Nat.ofDigitChars_ten_toDigits]
  simp only [number?, wildcard, read, if_true]

theorem eq_wildcard_of_number? (numbered : v.number? = some n) : v = wildcard n := by
  unfold number? at numbered
  split at numbered
  next =>
    dsimp only at numbered
    split at numbered
    next same =>
      cases numbered
      exact same
    next => cases numbered
  next => cases numbered

theorem number?_eq_none_iff : v.number? = none ↔ ∀ n, v ≠ wildcard n := by
  constructor
  · rintro none n rfl
    simp at none
  · intro named
    cases found : v.number? with
    | none => rfl
    | some n => exact absurd (eq_wildcard_of_number? found) (named n)

@[simp] theorem renumber_wildcard (f : Nat → Nat) (n : Nat) :
    (wildcard n).renumber f = wildcard (f n) := by
  simp [renumber]

theorem renumber_of_none (none : v.number? = none) (f : Nat → Nat) : v.renumber f = v := by
  simp [renumber, none]

@[simp] theorem number?_renumber (f : Nat → Nat) (v : Variable) :
    (v.renumber f).number? = v.number?.map f := by
  cases found : v.number? with
  | none => rw [renumber_of_none found, found]; rfl
  | some n => rw [eq_wildcard_of_number? found]; simp

@[simp] theorem renumber_renumber (f g : Nat → Nat) (v : Variable) :
    (v.renumber f).renumber g = v.renumber fun n => g (f n) := by
  cases found : v.number? with
  | none => simp [renumber_of_none found]
  | some n => simp [eq_wildcard_of_number? found]

theorem renumber_injective (one : Function.Injective f) : Function.Injective (renumber f) := by
  intro v w same
  have numbers := congrArg number? same
  simp only [number?_renumber] at numbers
  cases found : v.number? with
  | none =>
    cases found' : w.number? with
    | none => rwa [renumber_of_none found, renumber_of_none found'] at same
    | some m => simp [found, found'] at numbers
  | some n =>
    cases found' : w.number? with
    | none => simp [found, found'] at numbers
    | some m =>
      rw [found, found', Option.map_some, Option.map_some, Option.some.injEq] at numbers
      rw [eq_wildcard_of_number? found, eq_wildcard_of_number? found', one numbers]

theorem renumber_congr (same : ∀ n, v.number? = some n → f n = g n) :
    v.renumber f = v.renumber g := by
  cases found : v.number? with
  | none => rw [renumber_of_none found, renumber_of_none found]
  | some n => simp [eq_wildcard_of_number? found, same n found]

@[simp] theorem base_renumber (f : Nat → Nat) (v : Variable) : (v.renumber f).base = v.base := by
  cases found : v.number? with
  | none => rw [renumber_of_none found]
  | some n => rw [eq_wildcard_of_number? found, renumber_wildcard]; rfl

end Variable

/-- The numbers of the wildcards among some variables. -/
def numbers (vs : List Variable) : List Nat :=
  vs.filterMap Variable.number?

/-- The wildcards among some variables have rising numbers above one bound and up to another. -/
structure Numbered (low high : Nat) (vs : List Variable) : Prop where
  rising : (numbers vs).Pairwise (· < ·)
  range : ∀ n ∈ numbers vs, low < n ∧ n ≤ high

section Numbered

variable {low middle high : Nat} {vs ws : List Variable} {v : Variable}

@[simp] theorem numbers_append (vs ws : List Variable) :
    numbers (vs ++ ws) = numbers vs ++ numbers ws :=
  List.filterMap_append

theorem mem_numbers {n : Nat} : n ∈ numbers vs ↔ Variable.wildcard n ∈ vs := by
  rw [numbers, List.mem_filterMap]
  constructor
  · rintro ⟨v, member, found⟩
    exact Variable.eq_wildcard_of_number? found ▸ member
  · exact fun member => ⟨_, member, Variable.number?_wildcard n⟩

theorem numbers_map_renumber (f : Nat → Nat) (vs : List Variable) :
    numbers (vs.map (.renumber f)) = (numbers vs).map f := by
  rw [numbers, List.filterMap_map, numbers, List.map_filterMap]
  exact congrArg (List.filterMap · vs) (funext fun v => Variable.number?_renumber f v)

/-- Two renumberings of variables with different wildcards make one. -/
theorem exists_joint (apart : ∀ n ∈ numbers vs, n ∉ numbers ws) (f g : Nat → Nat) :
    ∃ h : Nat → Nat, (∀ v ∈ vs, v.renumber h = v.renumber f) ∧
      ∀ v ∈ ws, v.renumber h = v.renumber g := by
  have occurs : ∀ {us : List Variable} {v : Variable} {n : Nat}, v ∈ us → v.number? = some n →
      n ∈ numbers us := fun member found =>
    mem_numbers.mpr (Variable.eq_wildcard_of_number? found ▸ member)
  refine ⟨fun n => if n ∈ numbers vs then f n else g n, fun v member => ?_, fun v member => ?_⟩
  · exact Variable.renumber_congr fun n found => if_pos (occurs member found)
  · exact Variable.renumber_congr fun n found => if_neg fun inside =>
      apart n inside (occurs member found)

/-- A renumbering that keeps some wildcards apart can be changed elsewhere to keep all apart. -/
theorem exists_injective {f : Nat → Nat} (apart : ((numbers vs).map f).Nodup)
    (bounded : ∀ n ∈ numbers vs, f n ≤ high) :
    ∃ g : Nat → Nat, Function.Injective g ∧ ∀ v ∈ vs, v.renumber g = v.renumber f := by
  have one := List.inj_on_of_nodup_map apart
  refine ⟨fun n => if n ∈ numbers vs then f n else high + 1 + n, ?_, fun v member => ?_⟩
  · intro m n same
    dsimp only at same
    split at same
    next inside =>
      split at same
      next inside' => exact one inside inside' same
      next =>
        have := bounded m inside
        omega
    next =>
      split at same
      next inside =>
        have := bounded n inside
        omega
      next => omega
  · refine Variable.renumber_congr fun n found => if_pos ?_
    exact mem_numbers.mpr (Variable.eq_wildcard_of_number? found ▸ member)

theorem numbered_nil (low high : Nat) : Numbered low high [] :=
  ⟨List.Pairwise.nil, by simp [numbers]⟩

theorem numbered_named (named : v.number? = none) (low high : Nat) : Numbered low high [v] := by
  constructor <;> simp [numbers, named]

theorem numbered_wildcard (n : Nat) : Numbered n (n + 1) [.wildcard (n + 1)] := by
  constructor <;> simp [numbers]

theorem Numbered.mono (numbered : Numbered low middle vs) (later : middle ≤ high) :
    Numbered low high vs :=
  ⟨numbered.rising, fun n member =>
    ⟨(numbered.range n member).1, Nat.le_trans (numbered.range n member).2 later⟩⟩

theorem Numbered.above (numbered : Numbered middle high vs) (lower : low ≤ middle) :
    Numbered low high vs :=
  ⟨numbered.rising, fun n member =>
    ⟨Nat.lt_of_le_of_lt lower (numbered.range n member).1, (numbered.range n member).2⟩⟩

/-- A count that goes on from another start numbers the wildcards higher. -/
theorem Numbered.shift (numbered : Numbered low high vs) (k : Nat) :
    Numbered (low + k) (high + k) (vs.map (.renumber (· + k))) := by
  constructor
  · rw [numbers_map_renumber, List.pairwise_map]
    exact numbered.rising.imp fun less => by omega
  · intro n member
    rw [numbers_map_renumber, List.mem_map] at member
    obtain ⟨m, inside, rfl⟩ := member
    have bounds := numbered.range m inside
    omega

theorem Numbered.append (first : Numbered low middle vs) (second : Numbered middle high ws)
    (lower : low ≤ middle) (upper : middle ≤ high) : Numbered low high (vs ++ ws) := by
  constructor
  · rw [numbers_append, List.pairwise_append]
    refine ⟨first.rising, second.rising, fun m left n right => ?_⟩
    have below := (first.range m left).2
    have above := (second.range n right).1
    omega
  · intro n member
    rw [numbers_append, List.mem_append] at member
    rcases member with left | right
    · have bounds := first.range n left
      omega
    · have bounds := second.range n right
      omega

end Numbered

namespace Term

/-- A term with other names for its variables. -/
def rename (π : Variable → Variable) : Term → Term :=
  bind fun v => .var (π v)

variable {π ρ : Variable → Variable} {term : Term}

@[simp] theorem rename_atom (π : Variable → Variable) (name : String) :
    (atom name).rename π = .atom name := bind_atom _ _

@[simp] theorem rename_number (π : Variable → Variable) (value : Number) :
    (number value).rename π = .number value := bind_number _ _

@[simp] theorem rename_string (π : Variable → Variable) (value : String) :
    (string value).rename π = .string value := bind_string _ _

@[simp] theorem rename_var (π : Variable → Variable) (v : Variable) :
    (var v).rename π = .var (π v) := bind_var _ _

@[simp] theorem rename_compound (π : Variable → Variable) (functor : String)
    (arguments : List Term) :
    (compound functor arguments).rename π = .compound functor (arguments.map (rename π)) :=
  bind_compound _ _ _

theorem rename_rename (π ρ : Variable → Variable) (term : Term) :
    (term.rename π).rename ρ = term.rename fun v => ρ (π v) := by
  rw [rename, rename, bind_bind]
  exact bind_congr fun v _ => bind_var _ _

theorem rename_congr (same : ∀ v ∈ term.vars, π v = ρ v) : term.rename π = term.rename ρ :=
  bind_congr fun v member => by rw [same v member]

theorem rename_self (fixed : ∀ v ∈ term.vars, π v = v) : term.rename π = term :=
  bind_self fun v member => by rw [fixed v member]

theorem rename_id (term : Term) : term.rename id = term :=
  rename_self fun _ _ => rfl

@[simp] theorem vars_rename (π : Variable → Variable) (term : Term) :
    (term.rename π).vars = term.vars.map π := by
  induction term using structural with
  | atom name => simp [vars]
  | number value => simp [vars]
  | string value => simp [vars]
  | var v => simp
  | compound functor arguments ih =>
    simp only [rename_compound, vars_compound, List.map_flatMap, List.flatMap_map]
    rw [List.flatMap_def, List.flatMap_def, List.map_congr_left ih]

theorem indicator?_rename (π : Variable → Variable) (term : Term) :
    (term.rename π).indicator? = term.indicator? := by
  cases term <;> simp [indicator?]

theorem isExpression_rename (π : Variable → Variable) (term : Term) :
    (term.rename π).isExpression = term.isExpression := by
  cases term with
  | compound functor arguments =>
    rw [rename_compound]
    match arguments with
    | [] | [_] | [_, _] | _ :: _ :: _ :: _ => rfl
  | var v => rw [rename_var]; rfl
  | _ => simp

theorem isPlainLiteral_rename (π : Variable → Variable) (term : Term) :
    (term.rename π).isPlainLiteral = term.isPlainLiteral := by
  rw [isPlainLiteral, isPlainLiteral, indicator?_rename, isExpression_rename]

end Term

/-- Values in which variables occur. -/
class Renames (α : Type) where
  vars : α → List Variable
  rename : (Variable → Variable) → α → α
  rename_congr : ∀ {π ρ : Variable → Variable} {value : α}, (∀ v ∈ vars value, π v = ρ v) →
    rename π value = rename ρ value
  vars_rename : ∀ (π : Variable → Variable) (value : α), vars (rename π value) = (vars value).map π

instance : Renames Term where
  vars := Term.vars
  rename := Term.rename
  rename_congr := Term.rename_congr
  vars_rename := Term.vars_rename

namespace Renames

variable {α β : Type} [Renames α] [Renames β]

instance : Renames (α × β) where
  vars pair := vars pair.1 ++ vars pair.2
  rename π pair := (rename π pair.1, rename π pair.2)
  rename_congr same := by
    obtain ⟨first, second⟩ := List.forall_mem_append.mp same
    rw [rename_congr first, rename_congr second]
  vars_rename π pair := by rw [vars_rename, vars_rename, List.map_append]

instance : Renames (List α) where
  vars values := values.flatMap vars
  rename π values := values.map (rename π)
  rename_congr same := List.map_congr_left fun value member => rename_congr fun v occurs =>
    same v (List.mem_flatMap.mpr ⟨value, member, occurs⟩)
  vars_rename π values := by
    rw [List.flatMap_map, List.map_flatMap]
    exact List.flatMap_congr fun value _ => vars_rename π value

instance : Renames (Option α) where
  vars found := found.elim [] vars
  rename π found := found.map (rename π)
  rename_congr {_ _ found} same := by
    cases found with
    | none => rfl
    | some value => exact congrArg some (rename_congr same)
  vars_rename π found := by
    cases found with
    | none => rfl
    | some value => exact vars_rename π value

/-- No wildcard occurs twice in a value. -/
def Distinct (value : α) : Prop :=
  (numbers (vars value)).Nodup

/-- The second value is the first one with other numbers for its wildcards. -/
def Renumbered (value other : α) : Prop :=
  ∃ f : Nat → Nat, other = rename (.renumber f) value

variable {value other first first' : α} {second second' : β} {values others : List α}

theorem distinct_pair_iff : Distinct (first, second) ↔ Distinct first ∧ Distinct second ∧
    ∀ n ∈ numbers (vars first), n ∉ numbers (vars second) := by
  show (numbers (vars first ++ vars second)).Nodup ↔ _
  rw [numbers_append, List.nodup_append]
  refine and_congr_right fun _ => and_congr_right fun _ => ?_
  exact ⟨fun apart n inFirst inSecond => apart n inFirst n inSecond rfl,
    fun apart n inFirst m inSecond same => apart n inFirst (same ▸ inSecond)⟩

theorem Distinct.of_mem (distinct : Distinct values) (member : value ∈ values) : Distinct value := by
  obtain ⟨before, after, rfl⟩ := List.append_of_mem member
  have split : (numbers ((before ++ value :: after).flatMap vars)).Nodup := distinct
  rw [List.flatMap_append, List.flatMap_cons, numbers_append, numbers_append] at split
  exact (List.nodup_append.mp (List.nodup_append.mp split).2.1).1

/-- Parts that share no wildcard are renumbered in one. -/
theorem Renumbered.pair (one : Renumbered first first') (another : Renumbered second second')
    (distinct : Distinct (first, second)) : Renumbered (first, second) (first', second') := by
  obtain ⟨f, rfl⟩ := one
  obtain ⟨g, rfl⟩ := another
  obtain ⟨h, onFirst, onSecond⟩ := exists_joint (distinct_pair_iff.mp distinct).2.2 f g
  exact ⟨h, congrArg₂ Prod.mk (rename_congr onFirst).symm (rename_congr onSecond).symm⟩

theorem Renumbered.cons (one : Renumbered first first') (rest : Renumbered values others)
    (distinct : Distinct (first :: values)) : Renumbered (first :: values) (first' :: others) := by
  have distinct : Distinct (first, values) := distinct
  obtain ⟨f, same⟩ := one.pair rest distinct
  exact ⟨f, congrArg₂ List.cons (Prod.mk.inj same).1 (Prod.mk.inj same).2⟩

/-- The numbers of wildcards are changed one to one, if no number is there twice behind the change. -/
theorem Renumbered.injective {high : Nat} (renumbered : Renumbered value other)
    (distinct : Distinct other) (bounded : ∀ n ∈ numbers (vars other), n ≤ high) :
    ∃ g : Nat → Nat, Function.Injective g ∧ other = rename (.renumber g) value := by
  obtain ⟨f, rfl⟩ := renumbered
  rw [Distinct, vars_rename, numbers_map_renumber] at distinct
  rw [vars_rename, numbers_map_renumber, List.forall_mem_map] at bounded
  obtain ⟨g, one, same⟩ := exists_injective distinct bounded
  exact ⟨g, one, (rename_congr same).symm⟩

end Renames

end AgentSpeak
