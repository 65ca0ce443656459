import AgentSpeak.Number.Basic

namespace AgentSpeak

namespace Binary64

theorem one_pos : 0 < one := by
  unfold one
  generalize 1074 = exponent
  exact Nat.two_pow_pos exponent

theorem signed_injective {s t : Bool} {x y : Nat} (apart : signed s x ≠ 0)
    (equal : signed s x = signed t y) : s = t ∧ x = y := by
  cases s <;> cases t <;> simp [signed] at * <;> omega

/-- Outside zero, a floating-point number is determined by its place. -/
theorem eq_of_place? {x y : Binary64} (apart : x.place? ≠ some (0, 0))
    (equal : x.place? = y.place?) : x = y := by
  cases x with
  | nan => cases y <;> simp [place?] at *
  | infinite s =>
    cases y with
    | nan => simp [place?] at equal
    | infinite t => cases s <;> cases t <;> simp [place?] at *
    | finite t y _ => cases s <;> simp [place?] at equal
  | finite s x _ =>
    cases y with
    | nan => simp [place?] at equal
    | infinite t => cases t <;> simp [place?] at equal
    | finite t y _ =>
      simp only [place?, Option.some.injEq, Prod.mk.injEq, true_and, ne_eq] at apart equal
      obtain ⟨sign, magnitude⟩ := signed_injective apart equal
      subst sign
      subst magnitude
      rfl

end Binary64

namespace Number

theorem comparePlaces_eq_iff {p q : Int × Int} : comparePlaces p q = .eq ↔ p = q := by
  rw [comparePlaces, Ordering.then_eq_eq, Std.compare_eq_iff_eq, Std.compare_eq_iff_eq,
    Prod.ext_iff]

/-- Places are ordered lexicographically. -/
instance : Std.TransCmp comparePlaces :=
  inferInstanceAs (Std.TransCmp (compareLex (compareOn Prod.fst) (compareOn Prod.snd)))

theorem place?_int_injective {m n : Int} (equal : (int m).place? = (int n).place?) : m = n := by
  have scaled : m * Binary64.one = n * Binary64.one :=
    (Prod.mk.inj (Option.some.inj equal)).2
  exact Int.eq_of_mul_eq_mul_right (Int.natCast_ne_zero.mpr (Nat.ne_of_gt Binary64.one_pos)) scaled

private theorem compare_scaled (m n : Int) :
    compare (m * Binary64.one) (n * Binary64.one) = compare m n := by
  have positive : (0 : Int) < Binary64.one := Int.natCast_pos.mpr Binary64.one_pos
  simp only [Int.compare_eq_ite_lt, Int.mul_lt_mul_right positive]

/-- Numbers with a place compare as their places do, integers with one another too. -/
theorem compare?_of_place? {x y : Number} {p q : Int × Int} (left : x.place? = some p)
    (right : y.place? = some q) : x.compare? y = some (comparePlaces p q) := by
  unfold compare?
  split
  next m n =>
    cases left
    cases right
    exact congrArg some (compare_scaled m n).symm
  next => rw [left, right]

theorem compare?_eq_some_eq_iff (x y : Number) :
    x.compare? y = some .eq ↔ ∃ p, x.place? = some p ∧ y.place? = some p := by
  unfold compare?
  split
  next m n =>
    rw [Option.some.injEq, Std.compare_eq_iff_eq]
    constructor
    · rintro rfl
      exact ⟨_, rfl, rfl⟩
    · rintro ⟨p, left, right⟩
      exact place?_int_injective (left.trans right.symm)
  split
  next p q left right =>
    simp only [Option.some.injEq, comparePlaces_eq_iff, left, right]
    constructor
    · rintro rfl
      exact ⟨p, rfl, rfl⟩
    · rintro ⟨_, rfl, rfl⟩
      rfl
  next missing =>
    simp only [reduceCtorEq, false_iff]
    rintro ⟨p, left, right⟩
    exact missing p p left right

theorem isNaN_iff {x : Number} : x.isNaN = true ↔ x.place? = none := by
  cases x with
  | int n => simp only [isNaN, place?, reduceCtorEq, Bool.false_eq_true]
  | float x => cases x <;> simp [isNaN, place?, Binary64.place?]

/-- Two numbers are the same exactly if they have the same place, or none. -/
theorem same_iff_place? {x y : Number} : x.same y = true ↔ x.place? = y.place? := by
  have byValue : (x == y) = true ↔ x.compare? y = some .eq := by
    change (x.compare? y == some .eq) = true ↔ _
    simp
  rw [same, Bool.or_eq_true, Bool.and_eq_true, byValue, compare?_eq_some_eq_iff, isNaN_iff,
    isNaN_iff]
  constructor
  · rintro (⟨p, left, right⟩ | ⟨left, right⟩)
    · rw [left, right]
    · rw [left, right]
  · intro equal
    cases place : x.place? with
    | none => exact .inr ⟨rfl, equal ▸ place⟩
    | some p => exact .inl ⟨p, rfl, equal ▸ place⟩

/-- The number that stands for all numbers of one place. -/
def canonical : Number → Number
  | .int value => .int value
  | .float value =>
      match value.place? with
      | some (0, units) =>
          if (Binary64.one : Int) ∣ units then .int (units / Binary64.one) else .float value
      | _ => .float value

@[simp] theorem canonical_int (value : Int) : (int value).canonical = .int value := rfl

theorem place?_canonical (x : Number) : x.canonical.place? = x.place? := by
  cases x with
  | int value => rfl
  | float value =>
    rw [canonical]
    split
    next units place =>
      split
      next whole => simp only [Number.place?, place, Int.ediv_mul_cancel whole]
      next => rfl
    next => rfl

private theorem canonical_eq_int {value : Int} {y : Number}
    (equal : (int value).place? = y.place?) : y.canonical = int value := by
  cases y with
  | int other => exact congrArg int (place?_int_injective equal).symm
  | float y =>
    have place : y.place? = some (0, value * Binary64.one) := equal.symm
    have positive : (Binary64.one : Int) ≠ 0 :=
      Int.natCast_ne_zero.mpr (Nat.ne_of_gt Binary64.one_pos)
    simp only [canonical, place, if_pos (Int.dvd_mul_left value Binary64.one),
      Int.mul_ediv_cancel _ positive]

/-- Two numbers are the same exactly if their canonical numbers are. -/
theorem same_iff_canonical {x y : Number} : x.same y = true ↔ x.canonical = y.canonical := by
  rw [same_iff_place?]
  constructor
  · intro equal
    cases x with
    | int value => exact (canonical_eq_int equal).symm
    | float x =>
      cases y with
      | int value => exact canonical_eq_int equal.symm
      | float y =>
        change x.place? = y.place? at equal
        by_cases zero : x.place? = some (0, 0)
        · have other : y.place? = some (0, 0) := equal ▸ zero
          simp only [canonical, zero, other, if_pos (Int.dvd_zero _)]
        · rw [Binary64.eq_of_place? zero equal]
  · intro equal
    rw [← place?_canonical x, equal, place?_canonical]

end Number

end AgentSpeak
