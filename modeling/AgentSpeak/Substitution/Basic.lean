import AgentSpeak.Term.Basic

/-!
Substitutions: finite maps from variables to terms. A bound variable may stand for a term with
further bound variables, so reading a value follows bindings until none applies.

Adding a binding gives a new substitution; the one it extends stays as it was.
-/

namespace AgentSpeak

def bindingsWeight : List (Variable × Term) → Nat
  | [] => 0
  | (_, term) :: rest => term.size + 1 + bindingsWeight rest

/-- Bindings of variables, the latest first, and their total size. -/
structure Substitution where
  bindings : List (Variable × Term)
  weight : Nat
  weight_eq : weight = bindingsWeight bindings

namespace Substitution

def empty : Substitution :=
  ⟨[], 0, rfl⟩

instance : Inhabited Substitution := ⟨empty⟩

/-- The term that a variable is bound to directly. -/
def find? (θ : Substitution) (v : Variable) : Option Term :=
  θ.bindings.lookup v

def insert (θ : Substitution) (v : Variable) (term : Term) : Substitution :=
  { bindings := (v, term) :: θ.bindings
    weight := term.size + 1 + θ.weight
    weight_eq := by simp [bindingsWeight, θ.weight_eq] }

/-- The bindings of a list; of two for one variable the later one counts. -/
def ofList (bindings : List (Variable × Term)) : Substitution :=
  bindings.foldl (fun θ binding => θ.insert binding.1 binding.2) empty

/-- The bindings of variables outside a list. -/
def without (θ : Substitution) (fresh : List Variable) : Substitution :=
  { bindings := θ.bindings.filter fun binding => !fresh.contains binding.1
    weight := bindingsWeight (θ.bindings.filter fun binding => !fresh.contains binding.1)
    weight_eq := rfl }

/-- The end of a chain of variables bound to variables, at most `steps` bindings on. -/
def follow (θ : Substitution) : Nat → Variable → Term
  | 0, v => .var v
  | steps + 1, v =>
      match θ.find? v with
      | none => .var v
      | some (.var w) => θ.follow steps w
      | some term => term

/-- A term as it stands after following bindings at its root: an unbound variable or no variable.
No chain is longer than the weight. -/
def walk (θ : Substitution) : Term → Term
  | .var v => θ.follow θ.weight v
  | term => term

/-- The full value of a variable, with at most `depth` bindings on each path. -/
def value (θ : Substitution) : Nat → Variable → Term
  | 0, v => .var v
  | depth + 1, v =>
      match θ.find? v with
      | none => .var v
      | some term => term.bind (θ.value depth)

/-- A term with every bound variable replaced by its full value. -/
def apply (θ : Substitution) (term : Term) : Term :=
  term.bind (θ.value θ.weight)

/-- Whether a variable occurs in a term's full value. -/
def occurs (θ : Substitution) (v : Variable) (term : Term) : Bool :=
  (θ.apply term).vars.contains v

/-- The full values of the given variables, each once, leaving out the unbound ones. -/
def restrict (θ : Substitution) (wanted : List Variable) : List (Variable × Term) :=
  wanted.eraseDups.filterMap fun v =>
    let term := θ.apply (.var v)
    if term == .var v then none else some (v, term)

@[simp] theorem find?_empty (v : Variable) : empty.find? v = none := rfl

theorem find?_insert (θ : Substitution) (v w : Variable) (term : Term) :
    (θ.insert v term).find? w = if w = v then some term else θ.find? w := by
  by_cases same : w = v
  · simp [find?, insert, same]
  · have different : (w == v) = false := by simpa using same
    simp [find?, insert, List.lookup_cons, same, different]

end Substitution

end AgentSpeak
