import AgentSpeak.Proofs.Term.Instance

namespace AgentSpeak.Term

def isPower : Term → Bool
  | .compound functor [_, _] => functor == "**"
  | _ => false

mutual

/-- A term as its own text groups it. -/
def regroup : Term → Term
  | .compound "**" [base, exponent] => raise base (regroup exponent)
  | .compound functor arguments => .compound functor (regroupAll arguments)
  | term => term

/-- The power of a term to an exponent, as the text of the term in front of the exponent groups
it. -/
def raise : Term → Term → Term
  | .compound "**" [base, middle], exponent =>
      raise base (.compound "**" [regroup middle, exponent])
  | .compound functor arguments, exponent =>
      .compound "**" [.compound functor (regroupAll arguments), exponent]
  | term, exponent => .compound "**" [term, exponent]

/-- Each of some terms as its own text groups it. -/
def regroupAll : List Term → List Term
  | [] => []
  | term :: rest => regroup term :: regroupAll rest

end

/-- No power is the base of a power. -/
inductive RightNested : Term → Prop where
  | atom (name : String) : RightNested (.atom name)
  | number (value : Number) : RightNested (.number value)
  | string (value : String) : RightNested (.string value)
  | var (v : Variable) : RightNested (.var v)
  | power (base exponent : Term) (first : RightNested base) (second : RightNested exponent)
      (single : base.isPower = false) : RightNested (.compound "**" [base, exponent])
  | compound (functor : String) (arguments : List Term)
      (other : (compound functor arguments).isPower = false)
      (each : ∀ argument ∈ arguments, RightNested argument) :
      RightNested (.compound functor arguments)

variable {term base exponent : Term} {functor : String} {arguments : List Term}

theorem power_parts (power : (compound functor arguments).isPower = true) :
    ∃ base exponent, functor = "**" ∧ arguments = [base, exponent] := by
  unfold isPower at power
  split at power
  next base exponent same =>
    injection same with sign parts
    exact ⟨base, exponent, sign.trans (beq_iff_eq.mp power), parts⟩
  next => cases power

theorem isPower_map (functor : String) (arguments : List Term) (f : Term → Term) :
    (compound functor (arguments.map f)).isPower = (compound functor arguments).isPower := by
  match arguments with
  | [] | [_] | [_, _] | _ :: _ :: _ :: _ => rfl

theorem regroupAll_eq_map (terms : List Term) : regroupAll terms = terms.map regroup := by
  induction terms with
  | nil => rfl
  | cons term rest ih => rw [regroupAll, ih, List.map_cons]

theorem regroup_power (base exponent : Term) :
    (compound "**" [base, exponent]).regroup = base.raise exponent.regroup := by
  rw [regroup]

theorem raise_power (base middle exponent : Term) :
    (compound "**" [base, middle]).raise exponent =
      base.raise (.compound "**" [middle.regroup, exponent]) := by
  rw [raise]

theorem regroup_compound (other : (compound functor arguments).isPower = false) :
    (compound functor arguments).regroup = .compound functor (arguments.map regroup) := by
  have noPower : ∀ base exponent, functor = "**" → arguments = [base, exponent] → False := by
    rintro base exponent rfl rfl
    cases other
  rw [regroup.eq_2 functor arguments noPower, regroupAll_eq_map]

theorem raise_of_single (single : base.isPower = false) (exponent : Term) :
    base.raise exponent = .compound "**" [base.regroup, exponent] := by
  cases base with
  | compound functor arguments =>
    have noPower : ∀ base exponent, functor = "**" → arguments = [base, exponent] → False := by
      rintro base exponent rfl rfl
      cases single
    rw [raise.eq_2 _ functor arguments noPower, regroup_compound single, regroupAll_eq_map]
  | _ => rfl

/-- The base of a power that was regrouped is no power itself. -/
theorem raise_eq_power (base exponent : Term) :
    ∃ first rest, base.raise exponent = .compound "**" [first, rest] ∧ first.isPower = false := by
  induction base using structural generalizing exponent with
  | atom name => exact ⟨.atom name, exponent, rfl, rfl⟩
  | number value => exact ⟨.number value, exponent, rfl, rfl⟩
  | string value => exact ⟨.string value, exponent, rfl, rfl⟩
  | var v => exact ⟨.var v, exponent, rfl, rfl⟩
  | compound functor arguments ih =>
    by_cases power : (compound functor arguments).isPower = true
    · obtain ⟨base, middle, rfl, rfl⟩ := power_parts power
      rw [raise_power]
      exact ih base (by simp) _
    · have single : (compound functor arguments).isPower = false := by simpa using power
      refine ⟨_, exponent, raise_of_single single exponent, ?_⟩
      rw [regroup_compound single, isPower_map, single]

theorem regroup_ne_number (unlike : ∀ value, term ≠ .number value) (value : Number) :
    term.regroup ≠ .number value := by
  cases term with
  | number other => exact absurd rfl (unlike other)
  | compound functor arguments =>
    by_cases power : (compound functor arguments).isPower = true
    · obtain ⟨base, exponent, rfl, rfl⟩ := power_parts power
      obtain ⟨first, rest, raised, -⟩ := raise_eq_power base exponent.regroup
      rw [regroup_power, raised]
      exact nofun
    · rw [regroup_compound (by simpa using power)]
      exact nofun
  | _ => exact nofun

theorem rightNested_of_regroup_eq_self (same : term.regroup = term) : term.RightNested := by
  induction term using structural with
  | atom name => exact .atom name
  | number value => exact .number value
  | string value => exact .string value
  | var v => exact .var v
  | compound functor arguments ih =>
    by_cases power : (compound functor arguments).isPower = true
    · obtain ⟨base, exponent, rfl, rfl⟩ := power_parts power
      obtain ⟨first, rest, raised, single⟩ := raise_eq_power base exponent.regroup
      rw [regroup_power, raised] at same
      cases same
      rw [raise_of_single single] at raised
      injection raised with _ parts
      injection parts with onBase others
      injection others with onExponent
      exact .power _ _ (ih _ (by simp) onBase) (ih _ (by simp) onExponent) single
    · have other : (compound functor arguments).isPower = false := by simpa using power
      rw [regroup_compound other] at same
      injection same with _ parts
      have each : arguments.map regroup = arguments.map id := parts.trans (List.map_id _).symm
      exact .compound functor arguments other fun argument member =>
        ih argument member (List.map_inj_left.mp each argument member)

theorem RightNested.regroup_eq_self (nested : term.RightNested) : term.regroup = term := by
  induction nested with
  | atom | number | string | var => rfl
  | power base exponent first second single ih ih' =>
    rw [regroup_power, raise_of_single single, ih, ih']
  | compound functor arguments other each ih =>
    rw [regroup_compound other, List.map_congr_left ih, List.map_id']

/-- The terms that their own text groups as they are. -/
theorem regroup_eq_self_iff (term : Term) : term.regroup = term ↔ term.RightNested :=
  ⟨rightNested_of_regroup_eq_self, RightNested.regroup_eq_self⟩

end AgentSpeak.Term
