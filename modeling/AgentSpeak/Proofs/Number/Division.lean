import AgentSpeak.Proofs.Number.Place
import AgentSpeak.Proofs.Term.Folding

/-!
Division of integers. The remainder is exact for integers of any size. The quotient is the floor of a
floating-point number, so it is the floor of the exact quotient only where rounding reaches no whole
number that the exact quotient does not reach: it reaches none for a dividend of 53 bits, and none for
a quotient that is a floating-point number itself.
-/

namespace AgentSpeak

namespace Binary64

section Rounding

variable {numerator denominator bound : Nat}

theorem le_roundQuotient (positive : 0 < denominator)
    (below : bound * denominator ≤ numerator) : bound ≤ roundQuotient numerator denominator := by
  have whole : bound ≤ numerator / denominator := (Nat.le_div_iff_mul_le positive).mpr below
  unfold roundQuotient
  dsimp only
  split
  · exact whole
  · split <;> omega

theorem roundQuotient_le (positive : 0 < denominator)
    (above : numerator ≤ bound * denominator) : roundQuotient numerator denominator ≤ bound := by
  have split := Nat.div_add_mod numerator denominator
  rcases Nat.lt_or_ge (numerator / denominator) bound with less | least
  · unfold roundQuotient
    dsimp only
    split
    · omega
    · split <;> omega
  · have exact : numerator = bound * denominator :=
      Nat.le_antisymm above ((Nat.le_div_iff_mul_le positive).mp least)
    subst exact
    simp [roundQuotient, positive]

/-- Rounding stays below a whole number that is more than half a unit away. -/
theorem roundQuotient_lt (positive : 0 < denominator)
    (far : 2 * numerator + denominator < 2 * (bound * denominator)) :
    roundQuotient numerator denominator < bound := by
  have less : numerator / denominator < bound :=
    (Nat.div_lt_iff_lt_mul positive).mpr (by omega)
  obtain ⟨rest, rfl⟩ := Nat.exists_eq_add_of_lt less
  have split := Nat.div_add_mod numerator denominator
  rw [Nat.mul_comm denominator] at split
  rw [Nat.add_mul, Nat.add_mul, Nat.one_mul] at far
  unfold roundQuotient
  dsimp only
  split
  · omega
  next half =>
    have some : 0 < rest := by
      rcases Nat.eq_zero_or_pos rest with rfl | some
      · omega
      · exact some
    split <;> omega

/-- Rounding stays above a whole number that is more than half a unit away. -/
theorem lt_roundQuotient (positive : 0 < denominator)
    (far : 2 * (bound * denominator) + denominator < 2 * numerator) :
    bound < roundQuotient numerator denominator := by
  have least : bound ≤ numerator / denominator :=
    (Nat.le_div_iff_mul_le positive).mpr (by omega)
  rcases Nat.lt_or_eq_of_le least with less | rfl
  · exact Nat.lt_of_lt_of_le less
      (le_roundQuotient positive (Nat.div_mul_le_self numerator denominator))
  · have split := Nat.div_add_mod numerator denominator
    rw [Nat.mul_comm denominator] at split
    unfold roundQuotient
    dsimp only
    rw [if_neg (by omega), if_pos (by omega)]
    exact Nat.lt_succ_self _

end Rounding

theorem spacing_pos (units : Nat) : 0 < spacing units :=
  Nat.two_pow_pos (units.log2 - 52)

theorem mul_pow_lt {factor bits exponent limit : Nat} (few : factor < Nat.pow 2 bits)
    (enough : bits + exponent ≤ limit) : factor * Nat.pow 2 exponent < Nat.pow 2 limit := by
  have whole : factor * 2 ^ exponent < 2 ^ (bits + exponent) := by
    rw [Nat.pow_add]
    exact Nat.mul_lt_mul_of_pos_right few (Nat.two_pow_pos exponent)
  exact Nat.lt_of_lt_of_le whole (Nat.pow_le_pow_right (by decide) enough)

/-- A significand of 53 bits, or the first one of 54, counts values of its spacing. -/
theorem spacing_dvd {significand : Nat} (few : significand ≤ Nat.pow 2 53) (exponent : Nat) :
    spacing (significand * Nat.pow 2 exponent) ∣ significand * Nat.pow 2 exponent := by
  have few : significand ≤ 2 ^ 53 := few
  show 2 ^ ((significand * 2 ^ exponent).log2 - 52) ∣ significand * 2 ^ exponent
  rcases Nat.eq_zero_or_pos significand with rfl | some
  · rw [Nat.zero_mul]
    exact Nat.dvd_zero _
  have nonzero : significand * 2 ^ exponent ≠ 0 :=
    Nat.ne_of_gt (Nat.mul_pos some (Nat.two_pow_pos exponent))
  rcases Nat.lt_or_eq_of_le few with less | rfl
  · have bits : (significand * 2 ^ exponent).log2 < 53 + exponent := by
      rw [Nat.log2_lt nonzero, Nat.pow_add]
      exact Nat.mul_lt_mul_of_pos_right less (Nat.two_pow_pos exponent)
    exact Nat.dvd_trans (Nat.pow_dvd_pow 2 (by omega)) (Nat.dvd_mul_left _ _)
  · rw [← Nat.pow_add, Nat.log2_two_pow]
    exact Nat.pow_dvd_pow 2 (by omega)

/-- The units that a quotient is rounded to. -/
def roundedUnits (numerator denominator : Nat) : Nat :=
  roundQuotient numerator (denominator * spacing (numerator / denominator)) *
    spacing (numerator / denominator)

section Quotients

variable {numerator denominator : Nat}

theorem fits_roundedUnits (positive : 0 < denominator)
    (range : (numerator / denominator).log2 ≤ 2096) :
    Fits (roundedUnits numerator denominator) := by
  generalize quotient : numerator / denominator = units at range
  have enough : units < 2 ^ 52 * 2 * spacing units := by
    show units < 2 ^ 52 * 2 * 2 ^ (units.log2 - 52)
    rw [← Nat.pow_succ, ← Nat.pow_add]
    exact Nat.lt_of_lt_of_le Nat.lt_log2_self (Nat.pow_le_pow_right (by decide) (by omega))
  have significand : roundQuotient numerator (denominator * spacing units) ≤ Nat.pow 2 53 := by
    refine roundQuotient_le (Nat.mul_pos positive (spacing_pos units)) ?_
    have below : numerator / denominator < 2 ^ 52 * 2 * spacing units := quotient.symm ▸ enough
    show numerator ≤ 2 ^ 53 * (denominator * spacing units)
    calc
      numerator ≤ 2 ^ 52 * 2 * spacing units * denominator :=
        Nat.le_of_lt ((Nat.div_lt_iff_lt_mul positive).mp below)
      _ = 2 ^ 53 * (denominator * spacing units) := by
        rw [← Nat.pow_succ, Nat.mul_assoc, Nat.mul_comm denominator]
  have few : roundQuotient numerator (denominator * spacing units) < Nat.pow 2 54 :=
    Nat.lt_of_le_of_lt significand (by decide)
  have exponent : 54 + (units.log2 - 52) ≤ 2098 := by omega
  unfold roundedUnits Fits
  rw [quotient]
  generalize 2098 = limit at exponent
  exact ⟨Nat.mod_eq_zero_of_dvd (spacing_dvd significand _), mul_pow_lt few exponent⟩

/-- A quotient in the range of values is rounded to one of them. -/
theorem exists_ofQuotient (negative : Bool) (positive : 0 < denominator)
    (range : (numerator / denominator).log2 ≤ 2096) :
    ∃ fits, ofQuotient negative numerator denominator =
      .finite negative (roundedUnits numerator denominator) fits :=
  ⟨fits_roundedUnits positive range, dif_pos (fits_roundedUnits positive range)⟩

end Quotients

/-- Where values are close together, rounding a quotient keeps its order with whole numbers. -/
theorem roundedUnits_order {dividend divisor : Nat} (positive : 0 < divisor)
    (divides : spacing (dividend * one / divisor) ∣ one)
    (close : divisor * spacing (dividend * one / divisor) < 2 * one) (whole : Nat) :
    (whole * one ≤ roundedUnits (dividend * one) divisor ↔ whole * divisor ≤ dividend) ∧
      (roundedUnits (dividend * one) divisor ≤ whole * one ↔ dividend ≤ whole * divisor) := by
  unfold roundedUnits
  generalize gap : spacing (dividend * one / divisor) = step at divides close
  have some : 0 < step := gap ▸ spacing_pos _
  obtain ⟨steps, unit⟩ := divides
  have scale : whole * steps * (divisor * step) = whole * divisor * one := by
    rw [unit]
    ac_rfl
  have grid (units : Nat) : whole * one ≤ units * step ↔ whole * steps ≤ units := by
    rw [unit, Nat.mul_comm step, ← Nat.mul_assoc]
    exact Nat.mul_le_mul_right_iff some
  have grid' (units : Nat) : units * step ≤ whole * one ↔ units ≤ whole * steps := by
    rw [unit, Nat.mul_comm step, ← Nat.mul_assoc]
    exact Nat.mul_le_mul_right_iff some
  have width : 0 < divisor * step := Nat.mul_pos positive some
  rw [grid, grid']
  refine ⟨⟨fun reached => ?_, fun below => ?_⟩, ⟨fun reached => ?_, fun above => ?_⟩⟩
  · refine Nat.le_of_not_lt fun less => ?_
    refine absurd reached (Nat.not_le_of_lt (roundQuotient_lt width ?_))
    have next := Nat.mul_le_mul_right one (Nat.succ_le_of_lt less)
    rw [Nat.succ_mul] at next
    omega
  · refine le_roundQuotient width ?_
    rw [scale]
    exact Nat.mul_le_mul_right one below
  · refine Nat.le_of_not_lt fun more => ?_
    refine absurd reached (Nat.not_le_of_lt (lt_roundQuotient width ?_))
    have next := Nat.mul_le_mul_right one (Nat.succ_le_of_lt more)
    rw [Nat.succ_mul] at next
    omega
  · refine roundQuotient_le width ?_
    rw [scale]
    exact Nat.mul_le_mul_right one above

theorem spacing_dvd_one {units : Nat} (few : units.log2 - 52 ≤ 1074) : spacing units ∣ one := by
  unfold spacing one
  generalize 1074 = scale at few
  exact Nat.pow_dvd_pow 2 few

/-- A quotient of integers with a dividend of 53 bits lies where values are close together. -/
theorem spacing_small {dividend divisor : Nat} (small : dividend < Nat.pow 2 53)
    (range : divisor < 2 * one) :
    (dividend * one / divisor).log2 ≤ 1126 ∧ spacing (dividend * one / divisor) ∣ one ∧
      divisor * spacing (dividend * one / divisor) < 2 * one := by
  generalize quotient : dividend * one / divisor = units
  have below : units * divisor ≤ dividend * one := quotient ▸ Nat.div_mul_le_self _ divisor
  have least : units ≤ dividend * one := quotient ▸ Nat.div_le_self _ divisor
  have bits : units.log2 ≤ 1126 := by
    rcases Nat.eq_zero_or_pos units with rfl | some
    · decide
    · refine Nat.le_of_lt_succ ((Nat.log2_lt (Nat.ne_of_gt some)).mpr ?_)
      have exponent : 53 + 1074 ≤ Nat.succ 1126 := by decide
      unfold one at least
      generalize 1074 = scale at least exponent
      generalize Nat.succ 1126 = limit at exponent
      exact Nat.lt_of_le_of_lt least (mul_pow_lt small exponent)
  refine ⟨bits, spacing_dvd_one (Nat.sub_le_sub_right bits 52), ?_⟩
  rcases Nat.lt_or_ge units.log2 52 with fine | coarse
  · have unit : spacing units = 1 := by
      rw [spacing, Nat.sub_eq_zero_of_le (Nat.le_of_lt fine), Nat.pow_eq, Nat.pow_zero]
    rwa [unit, Nat.mul_one]
  · have some : units ≠ 0 := by
      rintro rfl
      exact absurd coarse (by decide)
    have leading : spacing units * 2 ^ 52 ≤ units := by
      have split : spacing units * 2 ^ 52 = 2 ^ units.log2 := by
        show 2 ^ (units.log2 - 52) * 2 ^ 52 = 2 ^ units.log2
        rw [← Nat.pow_add, Nat.sub_add_cancel coarse]
      rw [split]
      exact Nat.log2_self_le some
    have scaled : divisor * spacing units * 2 ^ 52 < 2 * one * 2 ^ 52 := by
      calc
        divisor * spacing units * 2 ^ 52 = spacing units * 2 ^ 52 * divisor := by ac_rfl
        _ ≤ units * divisor := Nat.mul_le_mul_right _ leading
        _ ≤ dividend * one := below
        _ < 2 ^ 53 * one := Nat.mul_lt_mul_of_pos_right small one_pos
        _ = 2 * one * 2 ^ 52 := by omega
    exact Nat.lt_of_mul_lt_mul_right scaled

/-- Quotients that have the same order with all integers have the same floor. -/
theorem fdiv_eq_of_order {x y : Int} {scale divisor : Nat} (unit : 0 < scale)
    (positive : 0 < divisor)
    (order : ∀ k : Int, k * scale ≤ x ↔ k * divisor ≤ y) : x.fdiv scale = y.fdiv divisor := by
  have unit : (0 : Int) < scale := Int.natCast_pos.mpr unit
  have positive : (0 : Int) < divisor := Int.natCast_pos.mpr positive
  rw [Int.fdiv_eq_ediv_of_nonneg x (Int.le_of_lt unit),
    Int.fdiv_eq_ediv_of_nonneg y (Int.le_of_lt positive)]
  apply Int.le_antisymm
  · rw [Int.le_ediv_iff_mul_le positive, ← order]
    exact Int.ediv_mul_le x (Int.ne_of_gt unit)
  · rw [Int.le_ediv_iff_mul_le unit, order]
    exact Int.ediv_mul_le y (Int.ne_of_gt positive)

/-- Magnitudes that have the same order with all whole numbers keep it when both are negated. -/
theorem signed_order {x y scale divisor : Nat} (unit : 0 < scale) (positive : 0 < divisor)
    (order : ∀ whole : Nat, (whole * scale ≤ x ↔ whole * divisor ≤ y) ∧
      (x ≤ whole * scale ↔ y ≤ whole * divisor)) (negative : Bool) (k : Int) :
    k * scale ≤ signed negative x ↔ k * divisor ≤ signed negative y := by
  have unit : (0 : Int) < scale := Int.natCast_pos.mpr unit
  have positive : (0 : Int) < divisor := Int.natCast_pos.mpr positive
  cases negative with
  | false =>
    simp only [signed, Bool.false_eq_true, if_false]
    rcases Int.lt_or_le k 0 with below | above
    · have low := Int.mul_neg_of_neg_of_pos below unit
      have low' := Int.mul_neg_of_neg_of_pos below positive
      omega
    · obtain ⟨whole, rfl⟩ := Int.eq_ofNat_of_zero_le above
      exact_mod_cast (order whole).1
  | true =>
    simp only [signed, if_true]
    rcases Int.lt_or_le 0 k with above | below
    · have high := Int.mul_pos above unit
      have high' := Int.mul_pos above positive
      omega
    · obtain ⟨whole, same⟩ := Int.eq_ofNat_of_zero_le (Int.neg_nonneg_of_nonpos below)
      obtain rfl : k = -(whole : Int) := by omega
      rw [Int.neg_mul, Int.neg_mul, Int.neg_le_neg_iff, Int.neg_le_neg_iff]
      exact_mod_cast (order whole).2

/-- A quotient that is a value is found exactly. -/
theorem ofQuotient_exact {units divisor : Nat} (fits : Fits units) (positive : 0 < divisor)
    (negative : Bool) :
    ofQuotient negative (units * divisor) divisor = .finite negative units fits := by
  have quotient : units * divisor / divisor = units := Nat.mul_div_cancel units positive
  obtain ⟨significand, split⟩ := Nat.dvd_of_mod_eq_zero fits.1
  have width : 0 < divisor * spacing units := Nat.mul_pos positive (spacing_pos units)
  have scaled : units * divisor = significand * (divisor * spacing units) := by
    calc
      units * divisor = spacing units * significand * divisor := by rw [← split]
      _ = significand * (divisor * spacing units) := by ac_rfl
  have rounded : roundQuotient (units * divisor) (divisor * spacing units) = significand :=
    Nat.le_antisymm (roundQuotient_le width (Nat.le_of_eq scaled))
      (le_roundQuotient width (Nat.le_of_eq scaled.symm))
  unfold ofQuotient
  simp only [quotient, rounded, Nat.mul_comm significand, ← split]
  exact dif_pos fits

/-- Whole numbers of 53 bits are values. -/
theorem fits_whole {whole : Nat} (small : whole < Nat.pow 2 53) : Fits (whole * one) := by
  have exponent : 53 + 1074 ≤ 2098 := by decide
  unfold one Fits
  generalize 1074 = scale at exponent
  generalize 2098 = limit at exponent
  exact ⟨Nat.mod_eq_zero_of_dvd (spacing_dvd (Nat.le_of_lt small) scale), mul_pow_lt small exponent⟩

end Binary64

namespace Number

variable {a b : Int}

/-- The floor of a quotient depends on the magnitudes and on whether the signs differ. -/
theorem fdiv_eq_signed (a b : Int) :
    a.fdiv b = (Binary64.signed ((a < 0) != (b < 0)) a.natAbs).fdiv b.natAbs := by
  rcases Int.lt_or_le a 0 with below | above <;> rcases Int.lt_or_le b 0 with below' | above'
  · have same : ((a < 0) != (b < 0)) = false := by simp [below, below']
    rw [same, Binary64.signed, if_neg Bool.false_ne_true,
      Int.ofNat_natAbs_of_nonpos (Int.le_of_lt below),
      Int.ofNat_natAbs_of_nonpos (Int.le_of_lt below'), Int.neg_fdiv_neg]
  · have differ : ((a < 0) != (b < 0)) = true := by simp [below, above']
    rw [differ, Binary64.signed, if_pos rfl, Int.ofNat_natAbs_of_nonpos (Int.le_of_lt below),
      Int.natAbs_of_nonneg above', Int.neg_neg]
  · have differ : ((a < 0) != (b < 0)) = true := by simp [above, below']
    rw [differ, Binary64.signed, if_pos rfl, Int.natAbs_of_nonneg above,
      Int.ofNat_natAbs_of_nonpos (Int.le_of_lt below'), Int.neg_fdiv_neg]
  · have same : ((a < 0) != (b < 0)) = false := by
      simp [Int.not_lt.mpr above, Int.not_lt.mpr above']
    rw [same, Binary64.signed, if_neg Bool.false_ne_true, Int.natAbs_of_nonneg above,
      Int.natAbs_of_nonneg above']

/-- A quotient of integers in the range of values has the floor of its value. -/
theorem floorQuotient_of_finite {negative : Bool} {units : Nat} {fits : Binary64.Fits units}
    (rounded : Binary64.ofQuotient ((a < 0) != (b < 0)) (a.natAbs * Binary64.one) b.natAbs =
      .finite negative units fits) :
    (int a).floorQuotient (int b) = .ok (.int (Binary64.floor negative units)) := by
  rw [floorQuotient, quotient, quotientOfInts, rounded]
  rfl

/-- The quotient of integers is found exactly for a dividend of 53 bits. -/
theorem floorQuotient_small (nonzero : b ≠ 0) (small : a.natAbs < Nat.pow 2 53)
    (range : b.natAbs < 2 * Binary64.one) :
    (int a).floorQuotient (int b) = .ok (.int (a.fdiv b)) := by
  have positive : 0 < b.natAbs := Int.natAbs_pos.mpr nonzero
  obtain ⟨bits, divides, close⟩ := Binary64.spacing_small small range
  obtain ⟨fits, rounded⟩ := Binary64.exists_ofQuotient ((a < 0) != (b < 0)) positive
    (Nat.le_trans bits (by decide))
  have order := Binary64.roundedUnits_order positive divides close
  have floors := Binary64.fdiv_eq_of_order Binary64.one_pos positive
    (Binary64.signed_order Binary64.one_pos positive order ((a < 0) != (b < 0)))
  rw [floorQuotient_of_finite rounded, Binary64.floor, floors, ← fdiv_eq_signed]

/-- A whole quotient of 53 bits is found exactly, whatever the size of the operands. -/
theorem floorQuotient_multiple (nonzero : b ≠ 0) (small : a.natAbs < Nat.pow 2 53) :
    (int (a * b)).floorQuotient (int b) = .ok (.int a) := by
  have positive : 0 < b.natAbs := Int.natAbs_pos.mpr nonzero
  have rounded := Binary64.ofQuotient_exact (Binary64.fits_whole small) positive
    ((a * b < 0) != (b < 0))
  rw [Nat.mul_right_comm, ← Int.natAbs_mul] at rounded
  have order (whole : Nat) :
      (whole * Binary64.one ≤ a.natAbs * Binary64.one ↔ whole * b.natAbs ≤ (a * b).natAbs) ∧
        (a.natAbs * Binary64.one ≤ whole * Binary64.one ↔ (a * b).natAbs ≤ whole * b.natAbs) := by
    rw [Int.natAbs_mul, Nat.mul_le_mul_right_iff Binary64.one_pos,
      Nat.mul_le_mul_right_iff Binary64.one_pos, Nat.mul_le_mul_right_iff positive,
      Nat.mul_le_mul_right_iff positive]
    exact ⟨Iff.rfl, Iff.rfl⟩
  have floors := Binary64.fdiv_eq_of_order Binary64.one_pos positive
    (Binary64.signed_order Binary64.one_pos positive order ((a * b < 0) != (b < 0)))
  rw [floorQuotient_of_finite rounded, Binary64.floor, floors, ← fdiv_eq_signed,
    Int.mul_fdiv_cancel a nonzero]

/-- A remainder for a divisor is zero or has the divisor's sign, and its magnitude is less than the
divisor's. -/
def IsRemainder (r b : Int) : Prop :=
  (r = 0 ∨ r.sign = b.sign) ∧ r.natAbs < b.natAbs

theorem fmod_isRemainder (a : Int) (nonzero : b ≠ 0) : IsRemainder (a.fmod b) b := by
  unfold IsRemainder
  rcases Int.lt_or_gt_of_ne nonzero with negative | positive
  · have least := Int.fmod_nonneg_of_pos (-a) (Int.neg_pos_of_neg negative)
    have less := Int.fmod_lt_of_pos (-a) (Int.neg_pos_of_neg negative)
    rw [Int.neg_fmod_neg] at least less
    rw [Int.sign_eq_neg_one_of_neg negative, Int.sign_eq_neg_one_iff_neg]
    omega
  · have least := Int.fmod_nonneg_of_pos a positive
    have less := Int.fmod_lt_of_pos a positive
    rw [Int.sign_eq_one_of_pos positive, Int.sign_eq_one_iff_pos]
    omega

/-- The first dividend beyond 53 bits that is no floating-point number has the quotient by one
rounded. -/
theorem floorQuotient_rounds :
    (int 9007199254740993).floorQuotient (int 1) = .ok (.int 9007199254740992) := by
  have rounded : Binary64.ofQuotient (((9007199254740993 : Int) < 0) != ((1 : Int) < 0))
      ((9007199254740993 : Int).natAbs * Binary64.one) (1 : Int).natAbs =
        .finite false (9007199254740992 * Binary64.one) (by decide +kernel) := by
    decide +kernel
  have floors : Binary64.floor false (9007199254740992 * Binary64.one) = 9007199254740992 := by
    decide +kernel
  rw [floorQuotient_of_finite rounded, floors]

end Number

namespace Substitution

variable {θ : Substitution} {dividend divisor : Term} {a b : Int}

/-- The value of an operator's term is the operator applied to the values of its operands. -/
theorem evaluate_operator (operator : Operator) {x y : Number}
    (left : θ.evaluate dividend = .ok x) (right : θ.evaluate divisor = .ok y) :
    θ.evaluate (.compound operator.functor [dividend, divisor]) =
      operator.apply (.compound operator.functor [θ.apply dividend, θ.apply divisor]) x y := by
  generalize depth : (θ.apply dividend).size + ((θ.apply divisor).size + 0) = below
  have whole : (θ.apply (.compound operator.functor [dividend, divisor])).size = below + 1 := by
    rw [← depth, apply_compound]
    rfl
  have first : θ.evaluateWithin below dividend = .ok x := evaluateWithin_deeper left (by omega)
  have second : θ.evaluateWithin below divisor = .ok y := evaluateWithin_deeper right (by omega)
  rw [evaluate, whole, evaluateWithin, walk_compound]
  simp only [Operator.ofFunctor?_functor, first, second, apply_compound]
  rfl

/-- The remainder of integers is exact, whatever their size. -/
theorem evaluate_modulo (left : θ.evaluate dividend = .ok (.int a))
    (right : θ.evaluate divisor = .ok (.int b)) (nonzero : b ≠ 0) :
    θ.evaluate (.compound "mod" [dividend, divisor]) = .ok (.int (a.fmod b)) := by
  have zero : (Number.int b).isZero = false := beq_false_of_ne nonzero
  have applied := evaluate_operator .modulo left right
  rw [Operator.apply, zero] at applied
  exact applied

/-- The floored quotient is the one of the numbers. -/
theorem evaluate_floorQuotient {q : Int} (left : θ.evaluate dividend = .ok (.int a))
    (right : θ.evaluate divisor = .ok (.int b)) (nonzero : b ≠ 0)
    (found : (Number.int a).floorQuotient (.int b) = .ok (.int q)) :
    θ.evaluate (.compound "div" [dividend, divisor]) = .ok (.int q) := by
  have zero : (Number.int b).isZero = false := beq_false_of_ne nonzero
  have applied := evaluate_operator .floorQuotient left right
  rw [Operator.apply, zero, found] at applied
  exact applied

/-- The division law for a dividend of 53 bits: quotient and remainder make up the dividend. -/
theorem division_law (left : θ.evaluate dividend = .ok (.int a))
    (right : θ.evaluate divisor = .ok (.int b)) (nonzero : b ≠ 0)
    (small : a.natAbs < Nat.pow 2 53) (range : b.natAbs < 2 * Binary64.one) :
    ∃ q r : Int, θ.evaluate (.compound "div" [dividend, divisor]) = .ok (.int q) ∧
      θ.evaluate (.compound "mod" [dividend, divisor]) = .ok (.int r) ∧
        a = b * q + r ∧ Number.IsRemainder r b :=
  ⟨a.fdiv b, a.fmod b,
    evaluate_floorQuotient left right nonzero (Number.floorQuotient_small nonzero small range),
    evaluate_modulo left right nonzero, (Int.mul_fdiv_add_fmod a b).symm,
    Number.fmod_isRemainder a nonzero⟩

/-- The division law for a dividend that the divisor goes into a number of times of 53 bits. -/
theorem division_law_multiple (left : θ.evaluate dividend = .ok (.int (a * b)))
    (right : θ.evaluate divisor = .ok (.int b)) (nonzero : b ≠ 0)
    (small : a.natAbs < Nat.pow 2 53) :
    θ.evaluate (.compound "div" [dividend, divisor]) = .ok (.int a) ∧
      θ.evaluate (.compound "mod" [dividend, divisor]) = .ok (.int 0) := by
  refine ⟨evaluate_floorQuotient left right nonzero (Number.floorQuotient_multiple nonzero small), ?_⟩
  rw [evaluate_modulo left right nonzero, Int.mul_fmod_left]

/-- Beyond 53 bits quotient and remainder need not make up the dividend. -/
theorem division_rounds :
    empty.evaluate (.compound "div" [.number (.int 9007199254740993), .number (.int 1)]) =
        .ok (.int 9007199254740992) ∧
      empty.evaluate (.compound "mod" [.number (.int 9007199254740993), .number (.int 1)]) =
        .ok (.int 0) :=
  ⟨evaluate_floorQuotient rfl rfl (by decide) Number.floorQuotient_rounds, rfl⟩

end Substitution

end AgentSpeak
