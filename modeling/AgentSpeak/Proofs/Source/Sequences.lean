import AgentSpeak.Proofs.Source.Agreement

namespace AgentSpeak.Source.Parser

variable {α : Type} {S : Surroundings} {bound : Nat} {parser another : Parser α}

/-- Values of two runs that are related, given the count of wildcards before and behind them. -/
abbrev Likeness (α : Type) :=
  Nat → Nat → α → α → Prop

/-- Two parsers agree where there are fewer tokens than a bound. -/
def Reads (S : Surroundings) (bound : Nat) (parser another : Parser α) (related : Likeness α) :
    Prop :=
  ∀ w p q, S.Paired p q → p.length < bound → Agree S True w p q parser another (related w)

theorem Reads.shorter {related : Likeness α} {smaller : Nat}
    (reads : Reads S bound parser another related) (less : smaller ≤ bound) :
    Reads S smaller parser another related :=
  fun w p q paired short => reads w p q paired (Nat.lt_of_lt_of_le short less)

section Chains

variable {operator? : Kind → Option (α → α → α)} {related : Likeness α}

/-- What an operator makes of related operands is related. -/
def Combines (operator? : Kind → Option (α → α → α)) (related : Likeness α) : Prop :=
  ∀ kind combine low middle high left left' right right', operator? kind = some combine →
    low ≤ middle → middle ≤ high → related low middle left left' →
    related middle high right right' →
    related low high (combine left right) (combine left' right')

variable (fit : S.Fit) (combines : Combines operator? related)
  (none : operator? S.edge.kind = none) (other : operator? S.otherEdge.kind = Option.none)
  (reads : Reads S bound parser another related)

include fit combines none other reads

theorem agree_chainFrom {low : Nat} (fuel fuel' : Nat) {w : Nat} {p q : List Token}
    {left left' : α} (paired : S.Paired p q) (short : p.length < bound) (enough : p.length < fuel)
    (enough' : p.length < fuel') (lower : low ≤ w) (related' : related low w left left') :
    Agree S True w p q (chainFrom operator? parser fuel left)
      (chainFrom operator? another fuel' left') (related low) := by
  induction fuel generalizing fuel' w p q left left' with
  | zero => exact absurd enough (Nat.not_lt_zero _)
  | succ fuel ih =>
    obtain ⟨fuel', rfl⟩ := Nat.exists_eq_add_one_of_ne_zero (Nat.ne_zero_of_lt enough')
    rw [chainFrom, chainFrom]
    refine agree_peek fit paired ?_ ?_
    · rintro rfl rfl
      rw [none, other]
      exact agree_pure paired related'
    · intro t t' rest rest' here there moved own formed others
      rw [moved.kind]
      cases found : operator? t.kind with
      | none => exact agree_pure paired related'
      | some combine =>
        subst here there
        rw [List.length_cons] at short enough enough'
        refine agree_advance moved formed ?_
        refine Agree.bind (reads w rest rest' others (by omega)) ?_
        intro w' left left' right right' later consumed paired' operands
        have fewer := consumed.length_le
        exact ih fuel' paired' (by omega) (by omega) (by omega) (Nat.le_trans lower later)
          (combines t.kind combine low w w' _ _ _ _ found lower later related' operands)

theorem Reads.chain : Reads S bound (chain operator? parser) (chain operator? another) related := by
  intro w p q paired short
  rw [Parser.chain, Parser.chain]
  refine Agree.bind (reads w p q paired short) ?_
  intro w' left left' value value' later consumed paired' values
  have fewer := consumed.length_le
  refine agree_budget paired' fun fuel fuel' enough enough' => ?_
  exact agree_chainFrom fit combines none other reads fuel fuel' paired' (by omega) enough enough'
    later values

end Chains

section Commas

variable {related : Likeness α} {listed : Likeness (List α)}

/-- Related items make related lists. -/
structure Lists (related : Likeness α) (listed : Likeness (List α)) : Prop where
  single : ∀ {low high item item'}, low ≤ high → related low high item item' →
    listed low high [item] [item']
  cons : ∀ {low middle high item item' rest rest'}, low ≤ middle → middle ≤ high →
    related low middle item item' → listed middle high rest rest' →
    listed low high (item :: rest) (item' :: rest')

/-- A comma may stand behind the last item, so the second run may go on. -/
theorem agree_commaSeparated (fit : S.Fit) (lists : Lists related listed)
    (reads : Reads S bound parser another related) (fuel fuel' : Nat) {w : Nat} {p q : List Token}
    (paired : S.Paired p q) (short : p.length < bound) (enough : p.length < fuel)
    (enough' : p.length < fuel') :
    Agree S False w p q (commaSeparated parser fuel) (commaSeparated another fuel') (listed w) := by
  induction fuel generalizing fuel' w p q with
  | zero => exact absurd enough (Nat.not_lt_zero _)
  | succ fuel ih =>
    obtain ⟨fuel', rfl⟩ := Nat.exists_eq_add_one_of_ne_zero (Nat.ne_zero_of_lt enough')
    rw [commaSeparated, commaSeparated]
    refine Agree.bind (reads w p q paired short) ?_
    intro w' left left' item item' later consumed paired' items
    refine agree_accept_loose fit rfl paired' ?_ ?_
    · rintro t t' rest rest' rfl rfl others
      have fewer := consumed.length_le
      rw [List.length_cons] at fewer
      refine Agree.map (ih fuel' others (by omega) (by omega) (by omega)) ?_
      intro w'' items' items'' latest listed
      exact lists.cons later latest items listed
    · exact agree_pure paired' (lists.single later items)

end Commas

end AgentSpeak.Source.Parser
