import AgentSpeak.Proofs.Formula.Legible
import AgentSpeak.Proofs.Term.Reading

namespace AgentSpeak.Formula

open Source (Parser Kind Token Surroundings)
open Source.Parser
open Term (Spelled)

variable {S : Surroundings} {bound : Nat} {formula another : Parser Formula}

/-- Formulas of two runs, of which the second has seen more wildcards. -/
abbrev Copies (S : Surroundings) : Likeness Formula :=
  Copied S.shift

/-- Neither a relation nor a conjunction nor a disjunction ends a clause. -/
theorem no_connective {kind : Kind} (closes : kind.closes = true) :
    relation? kind = none ∧ conjunction? kind = none ∧ disjunction? kind = none := by
  cases kind <;> first | exact ⟨rfl, rfl, rfl⟩ | cases closes

theorem combines_conjunction : Combines conjunction? (Copies S) := by
  intro kind combine low middle high left left' right right' found lower upper first second
  unfold conjunction? at found
  split at found <;> cases found
  exact first.conjunction second lower upper

theorem combines_disjunction : Combines disjunction? (Copies S) := by
  intro kind combine low middle high left left' right right' found lower upper first second
  unfold disjunction? at found
  split at found <;> cases found
  exact first.disjunction second lower upper

section Parts

variable (fit : S.Fit) (alike : S.Alike) (spelled : ∀ token, S.allowed token → Spelled token)
  {w : Nat} {p q : List Token}

include fit alike spelled

theorem agree_relation {low : Nat} {left left' : Term} (paired : S.Paired p q) (lower : low ≤ w)
    (copied : Term.Copied S.shift low w left left') :
    Agree S True w p q (parseRelation? left) (parseRelation? left')
      fun w' => Option.Rel (Copies S low w') := by
  rw [parseRelation?, parseRelation?]
  refine agree_peek fit paired ?_ ?_
  · rintro rfl rfl
    rw [alike, (no_connective fit.ends).1]
    exact agree_pure .nil .none
  · rintro t t' rest rest' rfl rfl moved own formed others
    rw [moved.kind]
    cases found : relation? t.kind with
    | none => exact agree_pure paired .none
    | some relation =>
      refine agree_advance moved formed ?_
      refine Agree.map (Term.reads_parse fit spelled (rest.length + 1) w rest rest' others
        (Nat.lt_succ_self _)) ?_
      intro w' right right' later copied'
      exact .some (copied_comparison ⟨_, found⟩ copied copied' lower later)

theorem agree_atomic (paired : S.Paired p q) :
    Agree S True w p q parseAtomic parseAtomic (Copies S w) := by
  rw [parseAtomic]
  refine agree_peek_located fit paired fun first first' located => ?_
  refine Agree.bind (Term.reads_parse fit spelled (p.length + 1) w p q paired
    (Nat.lt_succ_self _)) ?_
  intro w' left left' term term' later _ paired' copied
  refine Agree.bind (agree_relation fit alike spelled paired' later copied) ?_
  intro w'' left left' found found' _ _ behind optional
  cases optional with
  | some formulas => exact agree_pure behind formulas
  | none =>
    have plain : term'.isPlainLiteral = term.isPlainLiteral := by
      rw [copied.same, Term.isPlainLiteral_rename]
    simp only [plain]
    split
    next isPlain =>
      exact agree_pure behind (copied_literal (copied.mono ‹_›) isPlain)
    next => exact agree_throw behind located rfl

end Parts

section Groups

variable (fit : S.Fit) (alike : S.Alike) (spelled : ∀ token, S.allowed token → Spelled token)
  (reads : Reads S bound formula another (Copies S))

include fit alike spelled reads

omit spelled in
theorem agree_group {w : Nat} {t t' : Token} {rest rest' : List Token}
    (moved : t.Moved S.distance t') (own : S.allowed t) (formed : t.problem? = none)
    (others : S.Paired rest rest') (short : rest.length < bound) :
    Agree S True w (t :: rest) (t' :: rest') (parseGroup? formula) (parseGroup? another)
      fun w' => Option.Rel (Copies S w w') := by
  rw [parseGroup?, parseGroup?]
  refine agree_attempt alike (.cons moved own others) ?_
  refine agree_advance moved formed ?_
  refine Agree.bind (reads w rest rest' others short) ?_
  intro w' left left' inner inner' _ _ paired' copied
  refine agree_expect fit rfl _ paired' ?_
  rintro t t' rest rest' rfl rfl moved behind
  have decided : ∀ kind : Kind, Agree S True w' rest rest'
      (if (relation? kind).isSome || Term.isArithmetic kind then return none
        else return some inner)
      (if (relation? kind).isSome || Term.isArithmetic kind then return none
        else return some inner')
      fun w' => Option.Rel (Copies S w w') := by
    intro kind
    split
    · exact agree_pure behind .none
    · exact agree_pure behind (.some copied)
  refine agree_peek fit behind ?_ ?_
  · rintro rfl rfl
    rw [alike]
    exact decided _
  · intro t t' _ _ _ _ moved _ _ _
    rw [moved.kind]
    exact decided _

theorem reads_simple :
    Reads S (bound + 1) (parseSimple formula) (parseSimple another) (Copies S) := by
  intro w p q paired short
  rw [parseSimple, parseSimple]
  refine agree_check fit (fit.lacks rfl) paired ?_ (agree_atomic fit alike spelled paired)
  rintro t t' rest rest' rfl rfl kind moved own formed others
  rw [List.length_cons] at short
  refine Agree.bind (agree_group fit alike reads moved own formed others (by omega)) ?_
  intro w' left left' found found' later _ behind optional
  cases optional with
  | some formulas => exact agree_pure behind formulas
  | none =>
    refine Agree.mono (agree_atomic fit alike spelled behind) ?_
    intro w'' latest value value' copied
    exact copied.above later

/-- A negation is read before a formula as often as it is there. -/
theorem agree_negation (fuel fuel' : Nat) {w : Nat} {p q : List Token} (paired : S.Paired p q)
    (short : p.length ≤ bound) (enough : p.length < fuel) (enough' : p.length < fuel') :
    Agree S True w p q (parseNegation formula fuel) (parseNegation another fuel') (Copies S w) := by
  induction fuel generalizing fuel' w p q with
  | zero => exact absurd enough (Nat.not_lt_zero _)
  | succ fuel ih =>
    obtain ⟨fuel', rfl⟩ := Nat.exists_eq_add_one_of_ne_zero (Nat.ne_zero_of_lt enough')
    rw [parseNegation, parseNegation]
    refine agree_accept fit (fit.lacks_of_alike alike rfl) paired ?_
      (reads_simple fit alike spelled reads w p q paired (Nat.lt_succ_of_le short))
    rintro t t' rest rest' rfl rfl others
    rw [List.length_cons] at short enough enough'
    refine Agree.map (ih fuel' others (by omega) (by omega) (by omega)) ?_
    intro w' inner inner' later copied
    exact copied.negation

end Groups

/-- Formulas that may nest deeper than there are tokens are read the same. -/
theorem reads_within (fit : S.Fit) (alike : S.Alike)
    (spelled : ∀ token, S.allowed token → Spelled token) (depth depth' : Nat)
    (deep : bound ≤ depth) (deep' : bound ≤ depth') :
    Reads S bound (parseWithin depth) (parseWithin depth') (Copies S) := by
  induction bound generalizing depth depth' with
  | zero => exact fun w p q paired short => absurd short (Nat.not_lt_zero _)
  | succ bound ih =>
    obtain ⟨depth, rfl⟩ := Nat.exists_eq_add_one_of_ne_zero (Nat.ne_zero_of_lt deep)
    obtain ⟨depth', rfl⟩ := Nat.exists_eq_add_one_of_ne_zero (Nat.ne_zero_of_lt deep')
    have inner := ih depth depth' (Nat.le_of_succ_le_succ deep) (Nat.le_of_succ_le_succ deep')
    have negation : Reads S (bound + 1) (do parseNegation (parseWithin depth) (← budget))
        (do parseNegation (parseWithin depth') (← budget)) (Copies S) :=
      fun w p q paired short => agree_budget paired fun fuel fuel' enough enough' =>
        agree_negation fit alike spelled inner fuel fuel' paired (Nat.le_of_lt_succ short) enough
          enough'
    have edge := no_connective fit.ends
    have other : S.otherEdge.kind.closes = true := alike ▸ fit.ends
    rw [parseWithin, parseWithin]
    refine Reads.chain fit combines_disjunction edge.2.2 (no_connective other).2.2 ?_
    exact Reads.chain fit combines_conjunction edge.2.1 (no_connective other).2.1 negation

theorem reads_parse (fit : S.Fit) (alike : S.Alike)
    (spelled : ∀ token, S.allowed token → Spelled token) (bound : Nat) :
    Reads S bound parse parse (Copies S) := by
  intro w p q paired short
  rw [parse]
  refine agree_budget paired fun depth depth' deep deep' => ?_
  exact reads_within fit alike spelled depth depth' deep deep' w p q paired (Nat.lt_succ_self _)

end AgentSpeak.Formula
