import AgentSpeak.Comparison
import AgentSpeak.Proofs.Fault
import AgentSpeak.Proofs.Term.Equality

namespace AgentSpeak

namespace Term

/-- The place of a sort of term in the standard order. -/
def rank : Term → Nat
  | .number _ => 0
  | .atom _ => 1
  | .string _ => 2
  | .compound .. => 3
  | .var _ => 4

mutual

/-- The standard order. Where it would be decided by what is not a number, there is none. -/
def standardOrder : Term → Term → Option Ordering
  | .number x, .number y => x.compare? y
  | .atom x, .atom y => some (compare x y)
  | .string x, .string y => some (compare x y)
  | .compound f xs, .compound g ys =>
      match (compare xs.length ys.length).then (compare f g) with
      | .eq => standardOrderAll xs ys
      | order => some order
  | s, t => some (compare s.rank t.rank)

/-- The standard order of the first pair of terms that are not equal. -/
def standardOrderAll : List Term → List Term → Option Ordering
  | x :: xs, y :: ys =>
      match standardOrder x y with
      | some .eq => standardOrderAll xs ys
      | order => order
  | _, _ => some .eq

end

section Keys

variable {s t : Term} {xs ys : List Term} {first second : SortKey}

private theorem sortKeys_spec {terms : List Term}
    (each : ∀ term ∈ terms, match term.vars.head? with
      | some v => term.sortKey = .error (.unboundInComparison v)
      | none => ∃ key, term.sortKey = .ok key) :
    match (varsAll terms).head? with
      | some v => sortKeys terms = .error (.unboundInComparison v)
      | none => ∃ keys, sortKeys terms = .ok keys := by
  induction terms with
  | nil => exact ⟨[], rfl⟩
  | cons term rest ih =>
    obtain ⟨here, others⟩ := List.forall_mem_cons.mp each
    have later := ih others
    rw [varsAll, sortKeys, List.head?_append]
    cases found : term.vars.head? with
    | some v =>
      rw [found] at here
      rw [here]
      rfl
    | none =>
      rw [found] at here
      obtain ⟨key, keyed⟩ := here
      rw [keyed, Option.none_or]
      cases next : (varsAll rest).head? with
      | some v =>
        rw [next] at later
        rw [later]
        rfl
      | none =>
        rw [next] at later
        obtain ⟨keys, all⟩ := later
        rw [all]
        exact ⟨key :: keys, rfl⟩

/-- A term has a key exactly if it has no variable. Otherwise its first variable is the fault. -/
theorem sortKey_spec (term : Term) :
    match term.vars.head? with
      | some v => term.sortKey = .error (.unboundInComparison v)
      | none => ∃ key, term.sortKey = .ok key := by
  induction term using structural with
  | atom name => exact ⟨.atom name, rfl⟩
  | number value => exact ⟨.number value, rfl⟩
  | string value => exact ⟨.string value, rfl⟩
  | var v => rfl
  | compound functor arguments ih =>
    have parts := sortKeys_spec ih
    rw [vars, sortKey]
    cases found : (varsAll arguments).head? with
    | some v =>
      rw [found] at parts
      rw [parts]
      rfl
    | none =>
      rw [found] at parts
      obtain ⟨keys, all⟩ := parts
      rw [all]
      exact ⟨_, rfl⟩

private theorem orderAll_keys {firsts seconds : List SortKey}
    (each : ∀ x ∈ xs, ∀ y first second, x.sortKey = .ok first → y.sortKey = .ok second →
      first.order second = x.standardOrder y)
    (size : xs.length = ys.length) (left : sortKeys xs = .ok firsts)
    (right : sortKeys ys = .ok seconds) :
    SortKey.orderAll firsts seconds = standardOrderAll xs ys := by
  induction xs generalizing ys firsts seconds with
  | nil =>
    cases List.length_eq_zero_iff.mp size.symm
    cases left
    cases right
    rfl
  | cons x xs ih =>
    cases ys with
    | nil => cases size
    | cons y ys =>
      obtain ⟨first, key, tailed⟩ := bind_eq_ok_iff.mp left
      obtain ⟨firsts, keys, rfl⟩ := map_eq_ok_iff.mp tailed
      obtain ⟨second, key', tailed'⟩ := bind_eq_ok_iff.mp right
      obtain ⟨seconds, keys', rfl⟩ := map_eq_ok_iff.mp tailed'
      have heads := each x (by simp) y first second key key'
      have tails := ih (fun x inside => each x (by simp [inside])) (Nat.succ.inj size) keys keys'
      rcases decided : x.standardOrder y with _ | _ | _ | _ <;>
        simp [SortKey.orderAll, standardOrderAll, heads, tails, decided]

/-- The keys of two terms are ordered as the terms are. -/
theorem order_sortKey (left : s.sortKey = .ok first) (right : t.sortKey = .ok second) :
    first.order second = s.standardOrder t := by
  induction s using structural generalizing t first second with
  | var v => cases left
  | atom name | number value | string value =>
    cases left
    cases t with
    | var v => cases right
    | compound functor arguments =>
      obtain ⟨keys, -, rfl⟩ := map_eq_ok_iff.mp right
      rfl
    | _ =>
      cases right
      rfl
  | compound f xs ih =>
    obtain ⟨firsts, keys, rfl⟩ := map_eq_ok_iff.mp left
    cases t with
    | var v => cases right
    | compound g ys =>
      obtain ⟨seconds, keys', rfl⟩ := map_eq_ok_iff.mp right
      rw [SortKey.order, standardOrder]
      cases decided : (compare xs.length ys.length).then (compare f g) with
      | lt | gt => rfl
      | eq =>
        rw [Ordering.then_eq_eq, Std.compare_eq_iff_eq] at decided
        exact orderAll_keys (fun x inside y first second => ih x inside) decided.1 keys keys'
    | _ =>
      cases right
      rfl

end Keys

/-- What a term begins with, as far as the standard order looks at it. -/
structure Head where
  rank : Nat
  place : Int × Int
  arity : Nat
  text : String

/-- The order of heads: by rank, and for one rank by place, by number of arguments, by text. -/
def Head.order : Head → Head → Ordering :=
  compareLex (compareOn rank) <|
    compareLex (fun x y => Number.comparePlaces x.place y.place) <|
      compareLex (compareOn arity) (compareOn text)

def head : Term → Head
  | .number value => ⟨rank (.number value), value.place?.getD (0, 0), 0, ""⟩
  | .atom name => ⟨rank (.atom name), (0, 0), 0, name⟩
  | .string value => ⟨rank (.string value), (0, 0), 0, value⟩
  | .compound functor arguments =>
      ⟨rank (.compound functor arguments), (0, 0), arguments.length, functor⟩
  | .var v => ⟨rank (.var v), (0, 0), 0, ""⟩

def arguments : Term → List Term
  | .compound _ arguments => arguments
  | _ => []

mutual

/-- What the parts of a term begin with, each part before its arguments. -/
def heads : Term → List Head
  | .compound functor arguments => head (.compound functor arguments) :: headsAll arguments
  | term => [head term]

def headsAll : List Term → List Head
  | [] => []
  | term :: rest => heads term ++ headsAll rest

end

instance : Std.TransCmp fun x y : Head => Number.comparePlaces x.place y.place where
  eq_swap := Std.OrientedCmp.eq_swap
  isLE_trans := Std.TransCmp.isLE_trans

instance : Std.TransCmp Head.order :=
  inferInstanceAs (Std.TransCmp (compareLex _ _))

instance : Ord Head := ⟨Head.order⟩

instance : Std.TransOrd Head :=
  inferInstanceAs (Std.TransCmp Head.order)

/-- The order of what the parts of two terms begin with. -/
def order : Term → Term → Ordering :=
  compareOn heads

instance : Std.TransCmp order :=
  inferInstanceAs (Std.TransCmp (compareOn heads))

/-- What passes from the arguments of each term to the term holds for all terms. -/
@[elab_as_elim]
theorem by_arguments {motive : Term → Prop} (term : Term)
    (step : ∀ term, (∀ argument ∈ term.arguments, motive argument) → motive term) :
    motive term := by
  induction term using structural with
  | compound functor arguments ih => exact step _ ih
  | _ => exact step _ fun _ member => nomatch member

theorem Valued.arguments {term : Term} (valued : term.Valued) :
    ∀ argument ∈ term.arguments, argument.Valued := by
  cases term with
  | compound functor arguments => exact hereditary_valued functor arguments valued
  | _ => exact fun _ member => nomatch member

theorem heads_eq (term : Term) : term.heads = term.head :: headsAll term.arguments := by
  cases term <;> rfl

variable {s t : Term} {xs ys : List Term}

private theorem compare_heads (s t : Term) (after behind : List Head) :
    compare (s.heads ++ after) (t.heads ++ behind) = (s.head.order t.head).then
      (compare (headsAll s.arguments ++ after) (headsAll t.arguments ++ behind)) := by
  rw [heads_eq, heads_eq]
  exact List.compareLex_cons_cons

private theorem settled (order : Ordering) :
    some order = match order with
      | .eq => some .eq
      | order => some order := by
  cases order <;> rfl

/-- The standard order looks at what the terms begin with, and then at their arguments. -/
theorem standardOrder_eq (left : s.Valued) (right : t.Valued) :
    s.standardOrder t = match s.head.order t.head with
      | .eq => standardOrderAll s.arguments t.arguments
      | order => some order := by
  cases s with
  | number x =>
    cases t with
    | number y =>
      obtain ⟨p, here⟩ := left.place
      obtain ⟨q, there⟩ := right.place
      have same : (number x).head.order (number y).head = Number.comparePlaces p q := by
        simp [Head.order, head, compareLex, compareOn, rank, here, there]
      rw [same, standardOrder, Number.compare?_of_place? here there]
      exact settled _
    | _ => rfl
  | atom x =>
    cases t with
    | atom y => exact settled _
    | _ => rfl
  | string x =>
    cases t with
    | string y => exact settled _
    | _ => rfl
  | compound f xs => cases t <;> rfl
  | var v => cases t <;> rfl

/-- The standard order decides, whatever follows the two terms, and leaves the decision to what
follows if it finds them equal. -/
private def Decides (s t : Term) : Prop :=
  ∃ order, s.standardOrder t = some order ∧
    ∀ after behind, compare (s.heads ++ after) (t.heads ++ behind) = order.then (compare after behind)

private theorem decides_all (each : ∀ x ∈ xs, ∀ y ∈ ys, Decides x y)
    (size : xs.length = ys.length) :
    ∃ order, standardOrderAll xs ys = some order ∧
      ∀ after behind, compare (headsAll xs ++ after) (headsAll ys ++ behind) =
        order.then (compare after behind) := by
  induction xs generalizing ys with
  | nil =>
    cases List.length_eq_zero_iff.mp size.symm
    exact ⟨.eq, rfl, fun _ _ => rfl⟩
  | cons x xs ih =>
    cases ys with
    | nil => cases size
    | cons y ys =>
      obtain ⟨first, found, decided⟩ := each x (by simp) y (by simp)
      obtain ⟨rest, others, later⟩ :=
        ih (fun x inside y present => each x (by simp [inside]) y (by simp [present]))
          (Nat.succ.inj size)
      refine ⟨first.then rest, ?_, fun after behind => ?_⟩
      · rw [standardOrderAll, found, others]
        cases first <;> rfl
      · rw [headsAll, headsAll, List.append_assoc, List.append_assoc, decided, later,
          Ordering.then_assoc]

/-- Heads that compare as equal announce the same number of arguments. -/
private theorem length_arguments (same : s.head.order t.head = .eq) :
    s.arguments.length = t.arguments.length := by
  have arity (term : Term) : term.head.arity = term.arguments.length := by
    cases term <;> rfl
  simp only [Head.order, compareLex, Ordering.then_eq_eq] at same
  rw [← arity, ← arity]
  exact Std.LawfulEqCmp.eq_of_compare same.2.2.1

private theorem decides (left : s.Valued) (right : t.Valued) : Decides s t := by
  induction s using by_arguments generalizing t with
  | step s ih =>
    -- Only terms that begin alike are compared by their arguments, and then they have equally many.
    by_cases same : s.head.order t.head = .eq
    · obtain ⟨order, found, decided⟩ := decides_all
        (fun x inside y present => ih x inside (left.arguments x inside) (right.arguments y present))
        (length_arguments same)
      refine ⟨order, ?_, fun after behind => ?_⟩
      · rw [standardOrder_eq left right, same]
        exact found
      · rw [compare_heads, same, Ordering.eq_then, decided]
    · refine ⟨s.head.order t.head, ?_, fun after behind => ?_⟩
      · rw [standardOrder_eq left right]
        split
        next equal => exact absurd equal same
        next => rfl
      · rw [compare_heads]
        cases found : s.head.order t.head with
        | eq => exact absurd found same
        | lt | gt => rfl

/-- Where all numbers have values, the standard order is the order of what the parts begin with. -/
theorem standardOrder_eq_order (left : s.Valued) (right : t.Valued) :
    s.standardOrder t = some (s.order t) := by
  obtain ⟨order, found, decided⟩ := decides left right
  have whole := decided [] []
  rw [List.append_nil, List.append_nil, Std.compare_self, Ordering.then_eq] at whole
  rw [found, ← whole]
  rfl

private theorem length_of_beqAll (equal : beqAll xs ys = true) : xs.length = ys.length := by
  induction xs generalizing ys with
  | nil =>
    cases ys with
    | nil => rfl
    | cons y ys => cases equal
  | cons x xs ih =>
    cases ys with
    | nil => cases equal
    | cons y ys => exact congrArg Nat.succ (ih (Bool.and_eq_true_iff.mp equal).2)

private theorem standardOrderAll_eq_iff
    (each : ∀ x ∈ xs, ∀ y, x.standardOrder y = some .eq ↔ beq x y = true)
    (size : xs.length = ys.length) :
    standardOrderAll xs ys = some .eq ↔ beqAll xs ys = true := by
  induction xs generalizing ys with
  | nil =>
    cases List.length_eq_zero_iff.mp size.symm
    exact iff_of_true rfl rfl
  | cons x xs ih =>
    cases ys with
    | nil => cases size
    | cons y ys =>
      rw [standardOrderAll, beqAll, Bool.and_eq_true, ← each x (by simp) y,
        ← ih (fun x inside => each x (by simp [inside])) (Nat.succ.inj size)]
      split
      next equal => simp [equal]
      next unequal => exact ⟨fun equal => absurd equal unequal, fun both => absurd both.1 unequal⟩

/-- The standard order finds a ground term equal to what equals it, and to nothing else. -/
theorem standardOrder_eq_some_eq_iff (ground : s.isGround = true) (valued : s.Valued) :
    s.standardOrder t = some .eq ↔ (s == t) = true := by
  change _ ↔ beq s t = true
  induction s using structural generalizing t with
  | atom x => cases t <;> simp [standardOrder, beq, rank]
  | number x =>
    cases t with
    | number y =>
      obtain ⟨p, here⟩ := valued.place
      rw [standardOrder, beq, Number.same_iff_place?, Number.compare?_eq_some_eq_iff]
      simp [here, eq_comm]
    | _ => simp [standardOrder, beq, rank]
  | string x => cases t <;> simp [standardOrder, beq, rank]
  | var v => cases ground
  | compound f xs ih =>
    cases t with
    | compound g ys =>
      rw [isGround, isGroundAll_iff] at ground
      have each := fun x inside y => ih x inside (ground x inside)
        (hereditary_valued f xs valued x inside) (t := y)
      rw [standardOrder, beq, Bool.and_eq_true, beq_iff_eq]
      split
      next same =>
        rw [Ordering.then_eq_eq, Std.compare_eq_iff_eq, Std.compare_eq_iff_eq] at same
        rw [standardOrderAll_eq_iff each same.1, and_iff_right same.2]
      next apart =>
        refine iff_of_false (fun equal => apart (Option.some.inj equal)) fun equal => ?_
        rw [Ordering.then_eq_eq, Std.compare_eq_iff_eq, Std.compare_eq_iff_eq] at apart
        exact apart ⟨length_of_beqAll equal.2, equal.1⟩
    | _ => simp [standardOrder, beq, rank]

theorem order_eq_iff (ground : s.isGround = true) (left : s.Valued) (right : t.Valued) :
    s.order t = .eq ↔ (s == t) = true := by
  rw [← standardOrder_eq_some_eq_iff ground left, standardOrder_eq_order left right,
    Option.some.injEq]

end Term

namespace Relation

/-- The relations that ask for the order of two terms. -/
def orderings : List Relation :=
  [less, lessEqual, greater, greaterEqual]

/-- An ordering needs the standard order of two terms without variables. The first variable of the
two is the fault. -/
theorem between_ordering {relation : Relation} (ordering : relation ∈ orderings) (s t : Term) :
    relation.between s t = match (s.vars ++ t.vars).head? with
      | some v => .error (.unboundInComparison v)
      | none => relation.admits (s.standardOrder t) := by
  have keyed : relation.between s t =
      (do relation.admits ((← s.sortKey).order (← t.sortKey))) := by
    simp only [orderings, List.mem_cons, List.not_mem_nil, or_false] at ordering
    rcases ordering with rfl | rfl | rfl | rfl <;> rfl
  have left := s.sortKey_spec
  have right := t.sortKey_spec
  rw [keyed, List.head?_append]
  cases here : s.vars.head? with
  | some v =>
    rw [here] at left
    rw [left]
    rfl
  | none =>
    rw [here] at left
    obtain ⟨first, key⟩ := left
    rw [key, Option.none_or]
    cases there : t.vars.head? with
    | some v =>
      rw [there] at right
      rw [right]
      rfl
    | none =>
      rw [there] at right
      obtain ⟨second, key'⟩ := right
      rw [key']
      exact congrArg relation.admits (Term.order_sortKey key key')

theorem admits_total {relation : Relation} (ordering : relation ∈ orderings)
    (order : Option Ordering) : ∃ answer, relation.admits order = .ok answer := by
  simp only [orderings, List.mem_cons, List.not_mem_nil, or_false] at ordering
  rcases ordering with rfl | rfl | rfl | rfl <;> exact ⟨_, rfl⟩

/-- An ordering fails exactly for terms with a variable. -/
theorem between_fault_iff {relation : Relation} (ordering : relation ∈ orderings) {s t : Term} :
    (∃ fault, relation.between s t = .error fault ∧ fault.kind = .evaluation) ↔
      ∃ v, v ∈ s.vars ++ t.vars := by
  rw [between_ordering ordering]
  split
  next v first =>
    exact iff_of_true ⟨_, rfl, rfl⟩ ⟨v, List.mem_of_head? first⟩
  next none =>
    obtain ⟨answer, admitted⟩ := admits_total ordering (s.standardOrder t)
    rw [List.head?_eq_none_iff.mp none, admitted]
    simp

end Relation

namespace Substitution

/-- A ground term that resolving leaves as it is, and in which every number has a value. -/
structure Comparable (θ : Substitution) (term : Term) : Prop where
  ground : term.isGround = true
  valued : term.Valued
  resolved : θ.resolve term = .ok term

variable {θ : Substitution} {relation : Relation} {a b : Term}

theorem compare_resolved (left : θ.resolve a = .ok a) (right : θ.resolve b = .ok b) :
    θ.compare relation a b = relation.between a b := by
  rw [compare, left, right]
  rfl

theorem Comparable.compare_ordering (left : θ.Comparable a) (right : θ.Comparable b)
    (ordering : relation ∈ Relation.orderings) :
    θ.compare relation a b = relation.admits (some (a.order b)) := by
  rw [compare_resolved left.resolved right.resolved, Relation.between_ordering ordering,
    Term.isGround_iff.mp left.ground, Term.isGround_iff.mp right.ground,
    Term.standardOrder_eq_order left.valued right.valued]
  rfl

theorem Comparable.less_iff (left : θ.Comparable a) (right : θ.Comparable b) :
    θ.compare .less a b = .ok true ↔ a.order b = .lt := by
  rw [left.compare_ordering right (by decide), Relation.admits]
  simp

/-- Ground terms are totally ordered: of two of them the one is less, or they are equal, or the other
is less, and the other relations follow from these. An ordering fails exactly if there is a variable
anywhere in the two terms. -/
theorem compare_total_order (θ : Substitution) :
    (∀ a b, θ.Comparable a → θ.Comparable b → ∃ below above : Bool,
      θ.compare .less a b = .ok below ∧ θ.compare .less b a = .ok above ∧
        θ.compare .equal a b = .ok (a == b) ∧ θ.compare .notEqual a b = .ok !(a == b) ∧
        [below, a == b, above].count true = 1 ∧
        θ.compare .lessEqual a b = .ok (below || a == b) ∧
        θ.compare .greater a b = θ.compare .less b a ∧
        θ.compare .greaterEqual a b = θ.compare .lessEqual b a) ∧
      (∀ a, θ.Comparable a → θ.compare .less a a = .ok false) ∧
      (∀ a b c, θ.Comparable a → θ.Comparable b → θ.Comparable c →
        θ.compare .less a b = .ok true → θ.compare .less b c = .ok true →
          θ.compare .less a c = .ok true) ∧
      ∀ relation ∈ Relation.orderings, ∀ a b,
        θ.resolve a = .ok a → θ.resolve b = .ok b →
          ((∃ fault, θ.compare relation a b = .error fault ∧ fault.kind = .evaluation) ↔
            ∃ v, v ∈ a.vars ++ b.vars) := by
  refine ⟨fun a b left right => ?_, fun a self => ?_, fun a b c one two three first second => ?_,
    fun relation ordering a b left right => ?_⟩
  · refine ⟨a.order b == .lt, b.order a == .lt, ?_⟩
    have swapped : b.order a = (a.order b).swap := Std.OrientedCmp.eq_swap
    have same : (a == b) = (a.order b == .eq) := by
      rw [Bool.eq_iff_iff, ← Term.order_eq_iff left.ground left.valued right.valued, beq_iff_eq]
    have onward (relation) (ordering : relation ∈ Relation.orderings) :=
      left.compare_ordering right ordering
    have backward (relation) (ordering : relation ∈ Relation.orderings) :=
      right.compare_ordering left ordering
    rw [onward .less (by decide), onward .lessEqual (by decide), onward .greater (by decide),
      onward .greaterEqual (by decide), backward .less (by decide), backward .lessEqual (by decide),
      compare_resolved left.resolved right.resolved, compare_resolved left.resolved right.resolved,
      Relation.between, Relation.between, swapped, same]
    cases a.order b <;> exact ⟨rfl, rfl, rfl, rfl, rfl, rfl, rfl, rfl⟩
  · have equal : a.order a = .eq := Std.ReflCmp.compare_self
    rw [self.compare_ordering self (by decide), equal]
    rfl
  · rw [one.less_iff two] at first
    rw [two.less_iff three] at second
    rw [one.less_iff three]
    exact Std.TransCmp.lt_trans first second
  · rw [compare_resolved left right]
    exact Relation.between_fault_iff ordering

/-- The term `f(1, p)` is less than `f(1.0, q)`, and this one less than `f("1", p)`, since numbers come
before strings. With a term that has a variable inside, `f(1, p)` is not compared. -/
theorem compare_total_order_chain :
    let low : Term := .compound "f" [.number (.int 1), .atom "p"]
    let middle : Term := .compound "f" [.number (.float (.ofInt 1)), .atom "q"]
    let high : Term := .compound "f" [.string "1", .atom "p"]
    let unbound : Term := .compound "f" [.compound "g" [.var ⟨"X", []⟩], .atom "p"]
    empty.Comparable low ∧ empty.Comparable middle ∧ empty.Comparable high ∧
      empty.compare .less low middle = .ok true ∧ empty.compare .less middle high = .ok true ∧
      empty.compare .less low high = .ok true ∧
      ∃ fault, empty.compare .less low unbound = .error fault ∧ fault.kind = .evaluation := by
  intro low middle high unbound
  have one : empty.Comparable low := ⟨rfl, by decide, rfl⟩
  have two : empty.Comparable middle := ⟨rfl, by decide +kernel, rfl⟩
  have three : empty.Comparable high := ⟨rfl, by decide, rfl⟩
  have first : empty.compare .less low middle = .ok true :=
    toOption_eq_some_iff.mp (by decide +kernel)
  have second : empty.compare .less middle high = .ok true :=
    toOption_eq_some_iff.mp (by decide +kernel)
  obtain ⟨-, -, transitive, failing⟩ := compare_total_order empty
  refine ⟨one, two, three, first, second, transitive _ _ _ one two three first second, ?_⟩
  exact (failing .less (by decide) low unbound rfl rfl).mpr ⟨⟨"X", []⟩, by decide⟩

end Substitution

end AgentSpeak
