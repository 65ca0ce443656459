import AgentSpeak.Number.Shortest
import AgentSpeak.Text.Integer

namespace AgentSpeak

/-- A number of either kind. -/
inductive Number where
  | int (value : Int)
  | float (value : Binary64)

namespace Number

/-- The exact place on the number line; only what is not a number has none. -/
def place? : Number → Option (Int × Int)
  | .int value => some (0, value * Binary64.one)
  | .float value => value.place?

def comparePlaces (x y : Int × Int) : Ordering :=
  (compare x.1 y.1).then (compare x.2 y.2)

/-- The exact order of two numbers. -/
def compare? : Number → Number → Option Ordering
  | .int x, .int y => some (compare x y)
  | x, y =>
      match x.place?, y.place? with
      | some p, some q => some (comparePlaces p q)
      | _, _ => none

/-- Equality by exact value. -/
def beq (x y : Number) : Bool :=
  x.compare? y == some .eq

instance : BEq Number := ⟨beq⟩

def isNaN : Number → Bool
  | .float .nan => true
  | _ => false

/-- Whether two numbers are the same part of a term: equal by value, or both not a number, since
what is not a number has no identity here. -/
def same (x y : Number) : Bool :=
  x == y || x.isNaN && y.isNaN

/-- A zero of either kind and sign. -/
def isZero : Number → Bool
  | .int value => value == 0
  | .float value => value.isZero

/-- Whether a number has a text. An integer has none if it has too many digits, which need not be
counted for one of few bits. -/
def isWritable : Number → Bool
  | .int value => value.natAbs < Nat.pow 2 64 || value.natAbs < Nat.pow 10 Text.digitLimit
  | .float _ => true

/-- A number's digits; a floating-point number always shows a point or an exponent. -/
def render : Number → String
  | .int value => toString value
  | .float value => value.render

end Number

end AgentSpeak
