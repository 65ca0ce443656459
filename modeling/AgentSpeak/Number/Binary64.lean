/-!
Binary floating-point numbers of 64 bits, computed exactly and rounded once.

A finite value is a sign and a whole number of units of 2^-1074, the least positive value.
Each operation forms the exact rational result and rounds it to the nearest value, the even
one at a tie. Only raising to a power leaves this module's own arithmetic.
-/

namespace AgentSpeak

namespace Binary64

/-- The gap between neighbouring values at this magnitude, in units. -/
def spacing (units : Nat) : Nat :=
  Nat.pow 2 (units.log2 - 52)

/-- A magnitude is a value when it has at most 53 significant bits and lies below 2^1024. -/
def Fits (units : Nat) : Prop :=
  units % spacing units = 0 ∧ units < Nat.pow 2 2098

instance (units : Nat) : Decidable (Fits units) :=
  inferInstanceAs (Decidable (_ ∧ _))

/-- Units in the number one. -/
def one : Nat :=
  Nat.pow 2 1074

end Binary64

/-- A binary floating-point number of 64 bits; zero carries a sign. -/
inductive Binary64 where
  | nan
  | infinite (negative : Bool)
  | finite (negative : Bool) (units : Nat) (fits : Binary64.Fits units)
  deriving DecidableEq

namespace Binary64

/-- The whole number nearest to a quotient, the even one at a tie. -/
def roundQuotient (numerator denominator : Nat) : Nat :=
  let whole := numerator / denominator
  let twice := 2 * (numerator % denominator)
  if twice < denominator then whole
  else if denominator < twice then whole + 1
  else whole + whole % 2

/-- The value nearest to a quotient of units; too large a one is infinite. -/
def ofQuotient (negative : Bool) (numerator denominator : Nat) : Binary64 :=
  let step := spacing (numerator / denominator)
  let units := roundQuotient numerator (denominator * step) * step
  if fits : Fits units then .finite negative units fits else .infinite negative

/-- The value nearest to a whole number of units with the given sign. -/
def ofUnits (negative : Bool) (units : Nat) : Binary64 :=
  ofQuotient negative units 1

/-- Zero of the given sign. -/
def zero (negative : Bool) : Binary64 :=
  ofUnits negative 0

/-- The value nearest to an integer. -/
def ofInt (n : Int) : Binary64 :=
  ofUnits (n < 0) (n.natAbs * one)

/-- The value nearest to a decimal number `digits` · 10^`exponent`. Exponents far outside the
range are decided without forming the power. -/
def ofDecimal (digits : Nat) (exponent : Int) : Binary64 :=
  if digits = 0 then zero false
  else
    let size : Int := (Nat.repr digits).length + exponent
    if size < -400 then zero false
    else if 400 < size then .infinite false
    else ofQuotient false (digits * Nat.pow 10 exponent.toNat * one) (Nat.pow 10 (-exponent).toNat)

/-- The exact value of a finite number in units, without the sign of zero. -/
def signed (negative : Bool) (units : Nat) : Int :=
  if negative then -(units : Int) else units

/-- A number's sign, set for negative zero too. -/
def isNegative : Binary64 → Bool
  | .nan => false
  | .infinite negative => negative
  | .finite negative _ _ => negative

/-- Either zero. -/
def isZero : Binary64 → Bool
  | .finite _ units _ => units == 0
  | _ => false

/-- Either infinity. -/
def isInfinite : Binary64 → Bool
  | .infinite _ => true
  | _ => false

/-- The exact place on the number line: a rank that sets the infinities apart, then units.
What is not a number has no place. -/
def place? : Binary64 → Option (Int × Int)
  | .nan => none
  | .infinite negative => some (if negative then -1 else 1, 0)
  | .finite negative units _ => some (0, signed negative units)

/-- The number with its sign reversed. -/
def neg : Binary64 → Binary64
  | .nan => .nan
  | .infinite negative => .infinite !negative
  | .finite negative units fits => .finite (!negative) units fits

/-- The number without its sign. -/
def abs (x : Binary64) : Binary64 :=
  if x.isNegative then x.neg else x

/-- The rounded sum; a sum of zero is negative only for two negative zeros. -/
def add : Binary64 → Binary64 → Binary64
  | .finite s x _, .finite t y _ =>
      let sum := signed s x + signed t y
      ofUnits (sum < 0 || sum == 0 && s && t) sum.natAbs
  | .nan, _ => .nan
  | _, .nan => .nan
  | .infinite s, .infinite t => if s = t then .infinite s else .nan
  | .infinite s, .finite .. => .infinite s
  | .finite .., .infinite t => .infinite t

/-- The rounded difference. -/
def sub (x y : Binary64) : Binary64 :=
  x.add y.neg

/-- The rounded product. -/
def mul : Binary64 → Binary64 → Binary64
  | .finite s x _, .finite t y _ => ofQuotient (s != t) (x * y) one
  | .nan, _ => .nan
  | _, .nan => .nan
  | .infinite s, .infinite t => .infinite (s != t)
  | .infinite s, .finite t y _ => if y = 0 then .nan else .infinite (s != t)
  | .finite s x _, .infinite t => if x = 0 then .nan else .infinite (s != t)

/-- The rounded quotient; a nonzero number over zero is infinite. -/
def div : Binary64 → Binary64 → Binary64
  | .finite s x _, .finite t y _ =>
      if y = 0 then if x = 0 then .nan else .infinite (s != t)
      else ofQuotient (s != t) (x * one) y
  | .nan, _ => .nan
  | _, .nan => .nan
  | .infinite _, .infinite _ => .nan
  | .infinite s, .finite t _ _ => .infinite (s != t)
  | .finite s _ _, .infinite t => zero (s != t)

/-- The remainder of the quotient cut toward zero; it has the dividend's sign and is exact. -/
def truncatedRemainder : Binary64 → Binary64 → Binary64
  | .finite s x _, .finite _ y _ => if y = 0 then .nan else ofUnits s (x % y)
  | .finite s x fits, .infinite _ => .finite s x fits
  | _, _ => .nan

/-- The remainder with the divisor's sign. -/
def mod (x y : Binary64) : Binary64 :=
  match x.truncatedRemainder y with
  | .finite s units fits =>
      if units = 0 then zero y.isNegative
      else if s = y.isNegative then .finite s units fits
      else (Binary64.finite s units fits).add y
  | other => other

/-- The greatest integer not above a finite number. -/
def floor (negative : Bool) (units : Nat) : Int :=
  Int.fdiv (signed negative units) one

/-- The bits of the interchange format: sign, exponent field, fraction. -/
def toBits : Binary64 → UInt64
  | .nan => 0x7ff8000000000000
  | .infinite negative => .ofNat ((if negative then Nat.pow 2 63 else 0) + 2047 * Nat.pow 2 52)
  | .finite negative units _ =>
      let sign := if negative then Nat.pow 2 63 else 0
      if units < Nat.pow 2 52 then .ofNat (sign + units)
      else .ofNat (sign + (units.log2 - 52) * Nat.pow 2 52 + units / spacing units)

/-- The number that the bits of the interchange format stand for. -/
def ofBits (bits : UInt64) : Binary64 :=
  let word := bits.toNat
  let negative := Nat.pow 2 63 ≤ word
  let exponent := word / Nat.pow 2 52 % Nat.pow 2 11
  let fraction := word % Nat.pow 2 52
  if exponent = 2047 then
    if fraction = 0 then .infinite negative else .nan
  else if exponent = 0 then ofUnits negative fraction
  else ofUnits negative ((Nat.pow 2 52 + fraction) * Nat.pow 2 (exponent - 1))

/-- The system's power of two floating-point numbers. -/
def systemPower (base exponent : Binary64) : Binary64 :=
  ofBits (Float.pow (.ofBits base.toBits) (.ofBits exponent.toBits)).toBits

/-- A whole number, which every large value is. -/
def isWhole : Binary64 → Bool
  | .finite _ units _ => units % one == 0
  | _ => false

/-- An odd whole number. -/
def isOdd : Binary64 → Bool
  | .finite _ units _ => units % one == 0 && units / one % 2 == 1
  | _ => false

/-- The power of a negative or positive finite base other than zero. A negative base takes
whole exponents only; for others the power is complex and is no number here. -/
def finitePower (base exponent : Binary64) : Binary64 :=
  if base.isNegative && !exponent.isWhole then .nan
  else
    let magnitude :=
      if base.abs = ofInt 1 then ofInt 1 else systemPower base.abs exponent
    if base.isNegative && exponent.isOdd then magnitude.neg else magnitude

/-- A base compared with one by magnitude decides an infinite exponent. -/
def infinitePower (base : Binary64) (negative : Bool) : Binary64 :=
  if base.abs = ofInt 1 then ofInt 1
  else
    let grows := match base.abs.place?, (ofInt 1).place? with
      | some x, some y => decide (y.1 < x.1 ∨ y.1 = x.1 ∧ y.2 < x.2)
      | _, _ => false
    if grows = !negative then .infinite false else zero false

/-- `base` to the power of `exponent`, except that zero to a negative power has no value.
The exponent zero gives one for every base. -/
def power? (base exponent : Binary64) : Option Binary64 :=
  if exponent.isZero then some (ofInt 1)
  else match base, exponent with
    | .nan, _ => some .nan
    | base, .nan => some (if base = ofInt 1 then base else .nan)
    | base, .infinite negative => some (infinitePower base negative)
    | .infinite negative, exponent =>
        let magnitude := if exponent.isNegative then zero false else .infinite false
        some (if negative && exponent.isOdd then magnitude.neg else magnitude)
    | base, exponent =>
        if base.isZero then
          if exponent.isNegative then none
          else some (if exponent.isOdd then base else zero false)
        else some (finitePower base exponent)

end Binary64

end AgentSpeak
