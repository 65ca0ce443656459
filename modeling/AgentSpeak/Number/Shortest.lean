import AgentSpeak.Number.Binary64

/-!
The shortest decimal text of a binary floating-point number.

Every real number strictly between the midpoints to a value's two neighbours reads back as that
value, and so do the midpoints of an even significand. For one digit, two digits and so on, the two
points of the decimal grid around the value are tried; the first grid with a point in that
interval gives the digits.
-/

namespace AgentSpeak

namespace Binary64

/-- A decimal number `digits` · 10^`exponent`. -/
structure Decimal where
  digits : Nat
  exponent : Int
  deriving DecidableEq, Repr

/-- How many decimal digits a positive number has. -/
def digitCount (n : Nat) : Nat :=
  (Nat.repr n).length

/-- The power of ten at or below a positive magnitude. -/
def decimalExponent (units : Nat) : Int :=
  if one ≤ units then digitCount (units / one) - 1
  else -(digitCount ((one - 1) / units) : Int)

/-- The real numbers that read back as one value, as a quotient's bounds: `low / scale` to
`high / scale`, with the value itself at `centre / scale`. -/
structure ReadingInterval where
  low : Nat
  centre : Nat
  high : Nat
  scale : Nat
  closed : Bool

/-- The interval that reads back as a positive magnitude. The neighbour below a power of two is
half as far away as the one above it. -/
def readingInterval (units : Nat) : ReadingInterval :=
  let step := spacing units
  let below := if units = Nat.pow 2 units.log2 ∧ 1 < step then step else 2 * step
  { low := 4 * units - below
    centre := 4 * units
    high := 4 * units + 2 * step
    scale := 4 * one
    closed := units / step % 2 == 0 }

namespace ReadingInterval

/-- Whether a decimal number lies in the interval. -/
def contains (interval : ReadingInterval) (point : Decimal) : Bool :=
  let value := point.digits * Nat.pow 10 point.exponent.toNat * interval.scale
  let unit := Nat.pow 10 (-point.exponent).toNat
  if interval.closed then
    decide (interval.low * unit ≤ value ∧ value ≤ interval.high * unit)
  else decide (interval.low * unit < value ∧ value < interval.high * unit)

/-- How far a decimal number lies from the centre, on a scale common to one exponent. -/
def distance (interval : ReadingInterval) (point : Decimal) : Nat :=
  let value := point.digits * Nat.pow 10 point.exponent.toNat * interval.scale
  let centre := interval.centre * Nat.pow 10 (-point.exponent).toNat
  ((value : Int) - (centre : Int)).natAbs

/-- The grid point of this exponent at or below the centre. -/
def gridPoint (interval : ReadingInterval) (exponent : Int) : Decimal :=
  { digits := interval.centre * Nat.pow 10 (-exponent).toNat /
      (Nat.pow 10 exponent.toNat * interval.scale)
    exponent }

/-- The nearer of the two grid points around the centre that lie in the interval, the even one at
a tie. -/
def onGrid? (interval : ReadingInterval) (exponent : Int) : Option Decimal :=
  let lower := interval.gridPoint exponent
  let upper : Decimal := ⟨lower.digits + 1, exponent⟩
  match interval.contains lower, interval.contains upper with
  | false, false => none
  | true, false => some lower
  | false, true => some upper
  | true, true =>
      if interval.distance lower < interval.distance upper then some lower
      else if interval.distance upper < interval.distance lower then some upper
      else some (if lower.digits % 2 = 0 then lower else upper)

/-- The first grid with a point in the interval, each grid ten times finer than the one before. -/
def search (interval : ReadingInterval) : Nat → Int → Option Decimal
  | 0, _ => none
  | grids + 1, exponent =>
      match interval.onGrid? exponent with
      | some point => some point
      | none => interval.search grids (exponent - 1)

end ReadingInterval

/-- The same decimal number without zeros at the end of its digits. -/
def Decimal.trim : Nat → Decimal → Decimal
  | 0, number => number
  | fuel + 1, number =>
      if number.digits % 10 = 0 ∧ number.digits ≠ 0 then
        Decimal.trim fuel ⟨number.digits / 10, number.exponent + 1⟩
      else number

/-- The shortest decimal number that reads back as a positive magnitude, and of those the
nearest. Seventeen digits always suffice. -/
def shortest (units : Nat) : Decimal :=
  match (readingInterval units).search 17 (decimalExponent units) with
  | some point => point.trim 17
  | none => ⟨0, 0⟩

/-- Digits with a decimal point before position `point`, and at least one digit on each side. -/
def positional (digits : String) (point : Int) : String :=
  if point ≤ 0 then "0." ++ "".pushn '0' (-point).toNat ++ digits
  else if digits.length ≤ point then
    digits.pushn '0' (point.toNat - digits.length) ++ ".0"
  else (digits.take point.toNat).toString ++ "." ++ (digits.drop point.toNat).toString

/-- Digits with an exponent: one digit before the point, none after it if it is the only one, and
an exponent with a sign and at least two digits. -/
def scientific (digits : String) (exponent : Int) : String :=
  let fraction := (digits.drop 1).toString
  let magnitude := Nat.repr exponent.natAbs
  (digits.take 1).toString ++ (if fraction.isEmpty then "" else "." ++ fraction) ++ "e" ++
    (if exponent < 0 then "-" else "+") ++
    (if magnitude.length < 2 then "0" ++ magnitude else magnitude)

/-- A finite magnitude is written positionally from 10^-4 to below 10^16. -/
def renderMagnitude (units : Nat) : String :=
  if units = 0 then "0.0"
  else
    let number := shortest units
    let digits := Nat.repr number.digits
    let point := number.exponent + digits.length
    if -4 < point ∧ point ≤ 16 then positional digits point
    else scientific digits (point - 1)

/-- The text of a number: the fewest digits that read back as it. -/
def render : Binary64 → String
  | .nan => "nan"
  | .infinite negative => if negative then "-inf" else "inf"
  | .finite negative units _ => (if negative then "-" else "") ++ renderMagnitude units

end Binary64

end AgentSpeak
