import AgentSpeak.Proofs.Formula.Reading

namespace AgentSpeak

open Source (Parser Kind Token Cursor Surroundings Problem edge formed_of_kind
  isFatal_of_problem?)
open Source.Parser

namespace Term

variable {cursor after : Cursor} {term : Term}

/-- A term begins with a minus sign or with an operand, and behind this operand there is an operator
or the end of the term. -/
theorem parse_begins (done : parse cursor = (.ok term, after)) :
    cursor.token.problem? = none ∧ (cursor.token.kind = .minus ∨ ∃ first middle,
      parsePrimaryWith (parseWithin cursor.upcoming.length) cursor = (.ok first, middle) ∧
        (isArithmetic middle.token.kind = true ∨ after = middle)) := by
  rw [parse, run_bind, run_budget] at done
  dsimp only at done
  rw [parseWithin] at done
  obtain ⟨product, behind, productRan, sum⟩ := chain_begins done
  obtain ⟨power, middle, powerRan, product⟩ := chain_begins productRan
  rw [run_bind, run_budget] at powerRan
  dsimp only at powerRan
  rw [parsePower] at powerRan
  obtain ⟨base, first, unaryRan, powerRest⟩ := ok_bind powerRan
  obtain ⟨isPower, last, accepted, powerEnd⟩ := ok_bind powerRest
  rw [run_bind, run_budget] at unaryRan
  dsimp only at unaryRan
  rw [parseUnary] at unaryRan
  obtain ⟨isMinus, begun, signed, primaryRan⟩ := ok_bind unaryRan
  obtain ⟨formed, ⟨-, minus, -⟩ | ⟨rfl, -, rfl⟩⟩ := ok_accept signed
  · exact ⟨formed, .inl minus⟩
  · refine ⟨formed, .inr ⟨base, first, primaryRan, ?_⟩⟩
    obtain ⟨-, ⟨-, power, -⟩ | ⟨rfl, -, rfl⟩⟩ := ok_accept accepted
    · exact .inl (by simp [isArithmetic, power])
    · cases powerEnd
      rcases product with goesOn | rfl
      · exact .inl (by simp [isArithmetic, goesOn])
      · rcases sum with goesOn | rfl
        · exact .inl (by simp [isArithmetic, goesOn])
        · exact .inr rfl

/-- No term begins with a negation. -/
theorem parse_first (done : parse cursor = (.ok term, after)) : cursor.token.kind ≠ .notWord := by
  intro negation
  rcases (parse_begins done).2 with minus | ⟨first, middle, ran, -⟩
  · simp [minus] at negation
  · rw [parsePrimaryWith] at ran
    obtain ⟨token, begun, peeked, rest⟩ := ok_bind ran
    obtain ⟨-, rfl, rfl⟩ := ok_peek peeked
    rw [negation] at rest
    exact not_ok_fail rest

variable {opening finish : Token} {tokens left : List Token} {w w' : Nat}

/-- A term that begins with a parenthesis goes on behind it with an operator or ends there. -/
theorem parse_parenthesis (parenthesis : opening.kind = .openParen)
    (done : parse ⟨opening :: tokens, finish, w⟩ = (.ok term, after)) :
    ∃ inner middle, parse ⟨tokens, finish, w⟩ = (.ok inner, middle) ∧
      middle.token.kind = .closeParen ∧
      (isArithmetic (behind middle).token.kind = true ∨ after = behind middle) := by
  rcases (parse_begins done).2 with minus | ⟨first, middle, ran, ends⟩
  · have kind : opening.kind = .minus := minus
    simp [kind] at parenthesis
  · rw [parsePrimaryWith] at ran
    obtain ⟨token, begun, peeked, primary⟩ := ok_bind ran
    obtain ⟨-, first, rfl⟩ := ok_peek peeked
    have kind : token.kind = .openParen := first ▸ parenthesis
    rw [kind] at primary
    obtain ⟨_, inside, advanced, closing⟩ := ok_bind primary
    obtain ⟨-, -, rfl⟩ := ok_advance advanced
    obtain ⟨inner, last, innerRan, expected⟩ := ok_bind closing
    obtain ⟨_, closed, expecting, same⟩ := ok_bind expected
    obtain ⟨-, kind, -, rfl⟩ := ok_expect expecting
    cases same
    exact ⟨_, last, by rw [parse, run_bind, run_budget]; exact innerRan, kind, ends⟩

/-- The surroundings of a run up to the end of input and of the same run after more wildcards. -/
def twice (finish : Token) (shift : Nat) : Surroundings where
  rest := []
  other := []
  finish := finish
  last := finish
  distance := 0
  shift := shift
  allowed := Spelled

theorem twice_fit (ended : finish.kind = .endOfInput) (shift : Nat) : (twice finish shift).Fit := by
  have edge : (twice finish shift).edge = finish := rfl
  have other : (twice finish shift).otherEdge = finish := rfl
  refine ⟨by rw [edge, ended]; rfl, by rw [other, ended]; rfl, ?_⟩
  rw [other, Token.problem?, ended]

theorem twice_paired {finish : Token} {shift : Nat} (spelled : ∀ token ∈ tokens, Spelled token) :
    (twice finish shift).Paired tokens tokens := by
  induction tokens with
  | nil => exact .nil
  | cons token tokens ih =>
    exact .cons ⟨rfl, rfl, rfl, rfl⟩ (spelled token (by simp))
      (ih fun other member => spelled other (by simp [member]))

theorem twice_first (shift : Nat) : (twice finish shift).first tokens w = ⟨tokens, finish, w⟩ := by
  simp [Surroundings.first, twice]

theorem twice_second (shift : Nat) :
    (twice finish shift).second tokens w = ⟨tokens, finish, w + shift⟩ := by
  simp [Surroundings.second, twice]

/-- What a run leaves is the end of what it was given. -/
theorem parse_leaves (ended : finish.kind = .endOfInput)
    (spelled : ∀ token ∈ tokens, Spelled token) :
    ∃ used left outcome count, tokens = used ++ left ∧ w ≤ count ∧
      parse ⟨tokens, finish, w⟩ = (outcome, ⟨left, finish, count⟩) := by
  obtain ⟨outcome, left, count, ran, ⟨used, split, -⟩, grown, -⟩ :=
    reads_parse (twice_fit ended 0) (fun _ own => own) _ w _ _ (twice_paired spelled)
      (Nat.lt_succ_self _)
  rw [twice_first, twice_first] at ran
  exact ⟨used, left, outcome, count, split, grown, ran⟩

/-- After more wildcards a term is read from the same tokens. -/
theorem parse_later (ended : finish.kind = .endOfInput)
    (spelled : ∀ token ∈ tokens, Spelled token)
    (done : parse ⟨tokens, finish, w⟩ = (.ok term, after)) (later : w ≤ w') :
    ∃ used left count other count', tokens = used ++ left ∧ after = ⟨left, finish, count⟩ ∧
      w' ≤ count' ∧ parse ⟨tokens, finish, w'⟩ = (.ok other, ⟨left, finish, count'⟩) := by
  obtain ⟨outcome, left, count, ran, ⟨used, split, -⟩, -, -, same⟩ :=
    reads_parse (twice_fit ended (w' - w)) (fun _ own => own) _ w _ _ (twice_paired spelled)
      (Nat.lt_succ_self _)
  rw [twice_first, twice_first, done] at ran
  cases ran
  obtain ⟨outcome', left', again, behind, outcomes⟩ := same (.inl ⟨trivial, rfl⟩)
  rw [twice_second, twice_second, Nat.add_sub_cancel' later] at again
  obtain ⟨used', left'', outcome'', count', split', grown, leaves⟩ :=
    parse_leaves (w := w') ended spelled
  rw [again] at leaves
  obtain ⟨rfl, cursors⟩ := Prod.mk.inj leaves
  obtain ⟨rfl, -, more⟩ := Cursor.mk.inj cursors
  have suffixes : left' = left :=
    (List.append_inj' (split'.symm.trans split) behind.length_eq).2
  cases outcomes with
  | @ok _ other _ =>
    exact ⟨used, left, count, other, count', split, rfl, grown, by rw [again, suffixes, more]⟩

end Term

namespace Formula

open Term (Spelled twice twice_fit twice_first twice_paired)

variable {finish : Token} {tokens left : List Token} {w w' : Nat}

/-- A run gives a formula and ends where another run did, or it has a problem that does not end the
reading at once. -/
def EndsAt (after : Cursor) (run : Except Problem Formula × Cursor) : Prop :=
  (∃ formula last, run = (.ok formula, last) ∧ last.upcoming = after.upcoming ∧
      last.finish = after.finish) ∨
    ∃ problem last, run = (.error problem, last) ∧ problem.isFatal = false

theorem token_eq {cursor other : Cursor} (upcoming : cursor.upcoming = other.upcoming)
    (finish : cursor.finish = other.finish) : cursor.token = other.token := by
  rw [Cursor.token, Cursor.token, upcoming, finish]

variable {cursor after middle : Cursor} {term : Term} {parser : Parser Formula}

/-- A chain ends with its first operand where no operator follows. -/
theorem EndsAt.chain (ends : EndsAt after (parser cursor)) (closed : after.token.kind = .closeParen)
    {operator? : Kind → Option (Formula → Formula → Formula)}
    (stops : operator? .closeParen = none) : EndsAt after (chain operator? parser cursor) := by
  rcases ends with ⟨formula, last, ran, upcoming, finish⟩ | ⟨problem, last, ran, mild⟩
  · have kind : last.token.kind = .closeParen := token_eq upcoming finish ▸ closed
    refine .inl ⟨formula, last, ?_, upcoming, finish⟩
    rw [Parser.chain, run_then ran, run_then (run_budget last)]
    exact run_chainFrom_end (formed_of_kind kind (by decide)) (kind ▸ stops) _ _ _
  · exact .inr ⟨problem, last, by rw [Parser.chain, run_bind, ran], mild⟩

/-- A relation or a literal that is read where a term ends before a closing parenthesis ends
there. -/
theorem endsAt_atomic (done : Term.parse cursor = (.ok term, after))
    (closed : after.token.kind = .closeParen) : EndsAt after (parseAtomic cursor) := by
  have none : parseRelation? term after = (.ok none, after) := by
    rw [parseRelation?, run_then (run_peek_formed (formed_of_kind closed (by decide))), closed]
    rfl
  rw [parseAtomic, run_then (run_peek_formed (Term.parse_begins done).1), run_then done,
    run_then none]
  dsimp only
  split
  next => exact .inl ⟨_, _, rfl, rfl, rfl⟩
  next => exact .inr ⟨_, _, rfl, rfl⟩

/-- A trial of a group is in vain, or it gives a formula with neither a relation nor an operator
behind it. -/
inductive Trial (after cursor : Cursor) : Except Problem (Option Formula) × Cursor → Prop where
  | group {inner : Formula} {last : Cursor} (upcoming : last.upcoming = after.upcoming)
      (finish : last.finish = after.finish) (unrelated : relation? last.token.kind = none)
      (plain : Term.isArithmetic last.token.kind = false) :
      Trial after cursor (.ok (some inner), last)
  | vain (count : Nat) : Trial after cursor (.ok none, { cursor with wildcards := count })

/-- Where a formula in parentheses ends with a term, a group is tried up to the parenthesis that
closes. -/
theorem EndsAt.trial (ends : EndsAt middle (parser (behind cursor)))
    (formed : cursor.token.problem? = none) (closed : middle.token.kind = .closeParen) :
    Trial (behind middle) cursor (parseGroup? parser cursor) := by
  rw [parseGroup?, attempt, run_then (run_advance formed)]
  rcases ends with ⟨inner, last, ran, upcoming, finish⟩ | ⟨problem, last, ran, mild⟩
  · have kind : last.token.kind = .closeParen := token_eq upcoming finish ▸ closed
    have formed' := formed_of_kind kind (by decide)
    rw [run_then ran, run_then (run_expect formed' kind _), run_bind, run_peek]
    cases found : (behind last).token.problem? with
    | some problem =>
      dsimp only
      rw [isFatal_of_problem? found, if_neg Bool.false_ne_true]
      exact .vain _
    | none =>
      dsimp only
      by_cases goesOn : ((relation? (behind last).token.kind).isSome ||
        Term.isArithmetic (behind last).token.kind) = true
      · rw [if_pos goesOn]
        exact .vain _
      · rw [if_neg goesOn]
        simp only [Bool.or_eq_true, not_or, Bool.not_eq_true, Option.isSome_eq_false_iff,
          Option.isNone_iff_eq_none] at goesOn
        exact .group (congrArg List.tail upcoming) finish goesOn.1 goesOn.2
  · rw [run_bind, ran]
    dsimp only
    rw [mild, if_neg Bool.false_ne_true]
    exact .vain _

/-- A trial counts wildcards on. -/
theorem trial_grows (ended : finish.kind = .endOfInput) {opening : Token} {depth : Nat}
    (spelled : ∀ token ∈ opening :: tokens, Spelled token) (formed : opening.problem? = none)
    (enough : tokens.length < depth) {outcome : Except Problem (Option Formula)}
    (ran : parseGroup? (parseWithin depth) ⟨opening :: tokens, finish, w⟩ = (outcome, after)) :
    w ≤ after.wildcards := by
  have fit := twice_fit ended 0
  have reads : Reads (twice finish 0) depth (parseWithin depth) (parseWithin depth)
      (Copies (twice finish 0)) :=
    reads_within fit rfl (fun _ own => own) depth depth (Nat.le_refl _) (Nat.le_refl _)
  have moved : opening.Moved (twice finish 0).distance opening := ⟨rfl, rfl, rfl, rfl⟩
  have others : (twice finish 0).Paired tokens tokens := twice_paired fun token member =>
    spelled token (by simp [member])
  obtain ⟨outcome, left, count, again, -, grown, -⟩ :=
    agree_group (w := w) fit rfl reads moved (spelled opening (by simp)) formed others enough
  rw [twice_first, twice_first, ran] at again
  cases again
  exact grown

/-- A group, a relation or a literal that is read where a term ends before a closing parenthesis
ends there, if what is read in its parentheses does. -/
theorem endsAt_simple (ended : finish.kind = .endOfInput) {depth : Nat}
    (spelled : ∀ token ∈ tokens, Spelled token)
    (done : Term.parse ⟨tokens, finish, w⟩ = (.ok term, after))
    (closed : after.token.kind = .closeParen) (later : w ≤ w') (enough : tokens.length ≤ depth)
    (inside : ∀ opening rest inner middle, tokens = opening :: rest →
      Term.parse ⟨rest, finish, w⟩ = (.ok inner, middle) → middle.token.kind = .closeParen →
      EndsAt middle (parseWithin depth ⟨rest, finish, w'⟩)) :
    EndsAt after (parseSimple (parseWithin depth) ⟨tokens, finish, w'⟩) := by
  have formed : (Cursor.mk tokens finish w').token.problem? = none := (Term.parse_begins done).1
  have retried : ∀ count, w ≤ count → EndsAt after (parseAtomic ⟨tokens, finish, count⟩) := by
    intro count more
    obtain ⟨used, left, _, other, _, -, rfl, -, again⟩ := Term.parse_later ended spelled done more
    exact (endsAt_atomic again closed).imp id id
  rw [parseSimple, run_then (run_check formed)]
  by_cases parenthesis : (Cursor.mk tokens finish w').token.kind = .openParen
  · rw [if_pos (by simpa using parenthesis)]
    obtain ⟨opening, rest, rfl⟩ : ∃ opening rest, tokens = opening :: rest := by
      cases tokens with
      | nil => exact absurd (ended.symm.trans parenthesis) (by decide)
      | cons opening rest => exact ⟨opening, rest, rfl⟩
    obtain ⟨inner, middle, parsed, close, ends⟩ := Term.parse_parenthesis parenthesis done
    have trial : Trial (behind middle) ⟨opening :: rest, finish, w'⟩ _ :=
      (inside _ _ _ _ rfl parsed close).trial formed close
    generalize run : parseGroup? (parseWithin depth) ⟨opening :: rest, finish, w'⟩ = outcome at trial
    cases trial with
    | group upcoming finish unrelated plain =>
      rw [run_then run]
      rw [← token_eq upcoming finish, plain] at ends
      rw [ends.resolve_left Bool.false_ne_true]
      exact .inl ⟨_, _, rfl, upcoming, finish⟩
    | vain count =>
      rw [run_then run]
      exact retried count (Nat.le_trans later (trial_grows ended spelled formed enough run))
  · rw [if_neg (by simpa using parenthesis)]
    exact retried w' later

/-- Where a term ends before a closing parenthesis, a formula that is read there ends as well. -/
theorem ends_with_term (ended : finish.kind = .endOfInput) (depth : Nat)
    (spelled : ∀ token ∈ tokens, Spelled token)
    (done : Term.parse ⟨tokens, finish, w⟩ = (.ok term, after))
    (closed : after.token.kind = .closeParen) (later : w ≤ w') (enough : tokens.length < depth) :
    EndsAt after (parseWithin depth ⟨tokens, finish, w'⟩) := by
  induction depth generalizing tokens w w' term after with
  | zero => cases enough
  | succ depth ih =>
    have simple : EndsAt after (parseSimple (parseWithin depth) ⟨tokens, finish, w'⟩) := by
      refine endsAt_simple ended spelled done closed later (Nat.le_of_lt_succ enough) ?_
      rintro opening rest inner middle rfl parsed close
      exact ih (fun token member => spelled token (by simp [member])) parsed close later
        (Nat.lt_of_succ_lt_succ enough)
    refine EndsAt.chain (EndsAt.chain ?_ closed rfl) closed rfl
    rw [run_then (run_budget _)]
    cases fuel : (Cursor.mk tokens finish w').upcoming.length + 1 with
    | zero => exact simple
    | succ fuel =>
      have other := Term.parse_first done
      rw [parseNegation, run_then (@run_accept_false ⟨tokens, finish, w'⟩ _
        (Term.parse_begins done).1 other)]
      exact simple

/-- Parentheses that begin the left side of a relation are no group. -/
theorem no_group (ended : finish.kind = .endOfInput) {opening : Token} {depth : Nat}
    (spelled : ∀ token ∈ opening :: tokens, Spelled token) (formed : opening.problem? = none)
    (enough : tokens.length < depth) (parenthesis : opening.kind = .openParen) {term : Term}
    {after : Cursor} (done : Term.parse ⟨opening :: tokens, finish, w⟩ = (.ok term, after))
    (related : (relation? after.token.kind).isSome = true) :
    ∃ count, w ≤ count ∧ parseGroup? (parseWithin depth) ⟨opening :: tokens, finish, w⟩ =
      (.ok none, ⟨opening :: tokens, finish, count⟩) := by
  obtain ⟨inner, middle, parsed, close, ends⟩ := Term.parse_parenthesis parenthesis done
  have nested := ends_with_term ended depth
    (fun token member => spelled token (List.mem_cons_of_mem _ member)) parsed close
    (Nat.le_refl w) enough
  have trial : Trial (behind middle) ⟨opening :: tokens, finish, w⟩ _ := nested.trial formed close
  generalize run : parseGroup? (parseWithin depth) ⟨opening :: tokens, finish, w⟩ = outcome at trial
  cases trial with
  | group upcoming finish unrelated plain =>
    rw [← token_eq upcoming finish, plain] at ends
    rw [ends.resolve_left Bool.false_ne_true, ← token_eq upcoming finish, unrelated] at related
    cases related
  | vain count => exact ⟨count, trial_grows ended spelled formed enough run, rfl⟩

end Formula

end AgentSpeak
