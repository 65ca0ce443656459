import AgentSpeak.Arithmetic
import AgentSpeak.Formula.Basic

namespace AgentSpeak

/-- What a term is ordered by. There are keys of four ranks, and none for a variable. -/
inductive SortKey where
  | number (value : Number)
  | atom (name : String)
  | string (value : String)
  | compound (arity : Nat) (functor : String) (arguments : List SortKey)

namespace SortKey

def rank : SortKey → Nat
  | number _ => 0
  | atom _ => 1
  | string _ => 2
  | compound .. => 3

mutual

/-- The order of keys, with ranks first. There is none where what is not a number would decide. -/
def order : SortKey → SortKey → Option Ordering
  | number x, number y => x.compare? y
  | atom x, atom y => some (compare x y)
  | string x, string y => some (compare x y)
  | compound m f xs, compound n g ys =>
      match (compare m n).then (compare f g) with
      | .eq => orderAll xs ys
      | order => some order
  | s, t => some (compare s.rank t.rank)

/-- The order of the first two keys that differ. Of lists that differ in length only, the shorter one
comes first. -/
def orderAll : List SortKey → List SortKey → Option Ordering
  | x :: xs, y :: ys =>
      match order x y with
      | some .eq => orderAll xs ys
      | order => order
  | [], [] => some .eq
  | [], _ => some .lt
  | _, [] => some .gt

end

end SortKey

namespace Term

mutual

/-- What a term is ordered by. -/
def sortKey : Term → Except Fault SortKey
  | .var v => .error (.unboundInComparison v)
  | .number value => .ok (.number value)
  | .atom name => .ok (.atom name)
  | .string value => .ok (.string value)
  | .compound functor arguments =>
      (sortKeys arguments).map (SortKey.compound arguments.length functor)

def sortKeys : List Term → Except Fault (List SortKey)
  | [] => .ok []
  | term :: rest => do
      let key ← sortKey term
      return key :: (← sortKeys rest)

end

end Term

namespace Relation

def admits (order : Option Ordering) : Relation → Except Fault Bool
  | less => .ok (order == some .lt)
  | lessEqual => .ok (order == some .lt || order == some .eq)
  | greater => .ok (order == some .gt)
  | greaterEqual => .ok (order == some .gt || order == some .eq)
  | relation => .error (.unknownRelation relation.symbol)

/-- Whether a relation holds between two terms whose arithmetic is done. An ordering takes the keys of
both, the left one first. -/
def between (relation : Relation) (left right : Term) : Except Fault Bool :=
  match relation with
  | equal => .ok (left == right)
  | notEqual => .ok !(left == right)
  | relation => do
      let first ← left.sortKey
      let second ← right.sortKey
      relation.admits (first.order second)

end Relation

/-- Whether a relation other than unification holds between two terms. -/
def Substitution.compare (θ : Substitution) (relation : Relation) (left right : Term) :
    Except Fault Bool := do
  relation.between (← θ.resolve left) (← θ.resolve right)

end AgentSpeak
