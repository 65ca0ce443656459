import AgentSpeak.Number.Basic

/-!
Arithmetic on numbers of both kinds.

Integers stay integers under sum, difference, product, power and remainder. An operation with a
floating-point operand converts the other one first, which fails for an integer out of range.
-/

namespace AgentSpeak

/-- Why an operation on numbers has no value. -/
inductive NumberFault where
  /-- An integer to convert lies outside the floating-point range. -/
  | integerOutOfRange
  /-- A quotient of integers lies outside the floating-point range. -/
  | quotientOutOfRange
  /-- A power of floating-point numbers lies outside their range. -/
  | powerOutOfRange
  /-- The integer part was asked of an infinity. -/
  | infiniteIntegerPart
  /-- Zero was raised to a negative power. -/
  | zeroToNegativePower
  /-- The integer part was asked of what is not a number. -/
  | noIntegerPart
  deriving DecidableEq

namespace Number

/-- The nearest floating-point number, for an operation that needs one. -/
def toBinary64 : Number → Except NumberFault Binary64
  | .float value => .ok value
  | .int value =>
      let nearest := Binary64.ofInt value
      if nearest.isInfinite then .error .integerOutOfRange else .ok nearest

/-- An operation on two integers, or on floating-point numbers if either operand is one. -/
def combine (onInts : Int → Int → Number) (onFloats : Binary64 → Binary64 → Binary64) :
    Number → Number → Except NumberFault Number
  | .int x, .int y => .ok (onInts x y)
  | x, y => do return .float (onFloats (← x.toBinary64) (← y.toBinary64))

/-- The number with its sign reversed. -/
def neg : Number → Number
  | .int value => .int (-value)
  | .float value => .float value.neg

def add : Number → Number → Except NumberFault Number :=
  combine (fun x y => .int (x + y)) Binary64.add

def sub : Number → Number → Except NumberFault Number :=
  combine (fun x y => .int (x - y)) Binary64.sub

def mul : Number → Number → Except NumberFault Number :=
  combine (fun x y => .int (x * y)) Binary64.mul

/-- The quotient of two integers, rounded once. -/
def quotientOfInts (x y : Int) : Except NumberFault Binary64 :=
  let nearest := Binary64.ofQuotient ((x < 0) != (y < 0)) (x.natAbs * Binary64.one) y.natAbs
  if nearest.isInfinite then .error .quotientOutOfRange else .ok nearest

/-- The quotient as a floating-point number; the divisor is not zero. -/
def quotient : Number → Number → Except NumberFault Binary64
  | .int x, .int y => quotientOfInts x y
  | x, y => do return (← x.toBinary64).div (← y.toBinary64)

/-- The greatest integer not above a floating-point number. -/
def floor : Binary64 → Except NumberFault Number
  | .finite negative units _ => .ok (.int (Binary64.floor negative units))
  | .infinite _ => .error .infiniteIntegerPart
  | .nan => .error .noIntegerPart

/-- The greatest integer not above the rounded quotient; the divisor is not zero. -/
def floorQuotient (x y : Number) : Except NumberFault Number := do
  floor (← x.quotient y)

/-- The remainder with the divisor's sign; the divisor is not zero. -/
def mod : Number → Number → Except NumberFault Number :=
  combine (fun x y => .int (x.fmod y)) Binary64.mod

/-- The power of two floating-point numbers; one that is too large is a fault. -/
def floatPower (base exponent : Binary64) : Except NumberFault Number :=
  match base.power? exponent with
  | none => .error .zeroToNegativePower
  | some power =>
      if power.isInfinite && !base.isInfinite && !exponent.isInfinite then
        .error .powerOutOfRange
      else .ok (.float power)

/-- An integer's power, where the powers of 0, 1 and -1 are read off the exponent's parity. -/
def intPower (base : Int) (exponent : Nat) : Int :=
  if base.natAbs ≤ 1 ∧ exponent ≠ 0 then Int.pow base (2 - exponent % 2)
  else Int.pow base exponent

theorem intPower_eq (base : Int) (exponent : Nat) :
    intPower base exponent = Int.pow base exponent := by
  unfold intPower
  split
  next small =>
    have cases : base = 0 ∨ base = 1 ∨ base = -1 := by omega
    have parity : exponent % 2 = 0 ∨ exponent % 2 = 1 := by omega
    have split : exponent = 2 * (exponent / 2) + exponent % 2 := by omega
    change base ^ (2 - exponent % 2) = base ^ exponent
    rcases cases with rfl | rfl | rfl
    · rcases parity with even | odd
      · simp [even, Int.zero_pow small.2]
      · simp [odd, Int.zero_pow small.2]
    · rw [Int.one_pow, Int.one_pow]
    · have square : (-1 : Int) ^ 2 = 1 := rfl
      rcases parity with even | odd
      · rw [even, split, even, Int.pow_add, Int.pow_mul, square, Int.one_pow]
        rfl
      · rw [odd, split, odd, Int.pow_add, Int.pow_mul, square, Int.one_pow]
        rfl
  next => rfl

/-- The power. Integers stay integers unless the exponent is negative. -/
def pow : Number → Number → Except NumberFault Number
  | .int x, .int (.ofNat n) => .ok (.int (intPower x n))
  | x, y => do floatPower (← x.toBinary64) (← y.toBinary64)

end Number

end AgentSpeak
