import AgentSpeak.Source.Parser

namespace AgentSpeak.Source

/-- Only comments, strings and unknown characters can be malformed. -/
theorem formed_of_kind {token : Token} {kind : Kind} (same : token.kind = kind)
    (sure : kind ∉ [Kind.blockComment, .string, .unknown]) :
    token.problem? = none := by
  subst same
  unfold Token.problem?
  split <;> simp_all

/-- A token that no grammar accepts does not end the reading at once. -/
theorem isFatal_of_problem? {token : Token} {problem : Problem}
    (found : token.problem? = some problem) : problem.isFatal = false := by
  unfold Token.problem? at found
  split at found <;> cases found <;> rfl

namespace Parser

variable {α β : Type}

theorem run_bind (parser : Parser α) (next : α → Parser β) (cursor : Cursor) :
    (parser >>= next) cursor =
      match parser cursor with
      | (.ok value, after) => next value after
      | (.error problem, after) => (.error problem, after) := by
  rcases outcome : parser cursor with ⟨problem | value, after⟩
  · simp only [bind, ExceptT.bind, ExceptT.mk, StateT.bind, ExceptT.bindCont, outcome]
    rfl
  · simp only [bind, ExceptT.bind, ExceptT.mk, StateT.bind, ExceptT.bindCont, outcome]

/-- Behind a step that gives a value the run goes on with it. -/
theorem run_then {parser : Parser α} {cursor after : Cursor} {value : α}
    (ran : parser cursor = (.ok value, after)) (next : α → Parser β) :
    (parser >>= next) cursor = next value after := by
  rw [run_bind, ran]

@[simp] theorem run_pure (value : α) (cursor : Cursor) :
    (pure value : Parser α) cursor = (.ok value, cursor) := rfl

@[simp] theorem run_throw (problem : Problem) (cursor : Cursor) :
    (throw problem : Parser α) cursor = (.error problem, cursor) := rfl

theorem run_wellFormed (token : Token) (cursor : Cursor) :
    wellFormed token cursor = match token.problem? with
      | some problem => (.error problem, cursor)
      | none => (.ok token, cursor) := by
  unfold wellFormed
  split <;> simp_all

theorem run_peek (cursor : Cursor) :
    peek cursor = match cursor.token.problem? with
      | some problem => (.error problem, cursor)
      | none => (.ok cursor.token, cursor) :=
  run_wellFormed cursor.token cursor

theorem run_peekSecond (cursor : Cursor) :
    peekSecond cursor = match cursor.following.problem? with
      | some problem => (.error problem, cursor)
      | none => (.ok cursor.following, cursor) :=
  run_wellFormed cursor.following cursor

/-- The cursor behind its first token. -/
def behind (cursor : Cursor) : Cursor :=
  { cursor with upcoming := cursor.upcoming.tail }

theorem run_advance {cursor : Cursor} (formed : cursor.token.problem? = none) :
    advance cursor = (.ok cursor.token, behind cursor) := by
  rw [advance, run_bind, run_peek, formed]
  rfl

theorem check_bind (kind : Kind) (next : Bool → Parser α) :
    check kind >>= next = peek >>= fun token => next (decide (token.kind = kind)) := by
  simp [check]

theorem accept_bind (kind : Kind) (next : Bool → Parser α) :
    accept kind >>= next = peek >>= fun token =>
      if token.kind = kind then advance >>= fun _ => next true else next false := by
  rw [accept, bind_assoc, check_bind]
  refine congrArg _ (funext fun token => ?_)
  by_cases same : token.kind = kind <;> simp [same]

theorem expect_bind (kind : Kind) (expectation : Expectation) (next : Token → Parser α) :
    expect kind expectation >>= next = peek >>= fun token =>
      if token.kind = kind then advance >>= next
      else fail expectation := by
  rw [expect, bind_assoc, check_bind]
  refine congrArg _ (funext fun token => ?_)
  by_cases same : token.kind = kind
  · simp [same]
  · simp [same, fail]

theorem run_wildcard (cursor : Cursor) :
    wildcard cursor = (.ok (.wildcard (cursor.wildcards + 1)),
      { cursor with wildcards := cursor.wildcards + 1 }) := rfl

theorem run_budget (cursor : Cursor) :
    budget cursor = (.ok (cursor.upcoming.length + 1), cursor) := rfl

section Looking

variable {cursor : Cursor} {kind : Kind} (formed : cursor.token.problem? = none)

include formed

theorem run_peek_formed : peek cursor = (.ok cursor.token, cursor) := by
  rw [run_peek, formed]

theorem run_check : check kind cursor = (.ok (decide (cursor.token.kind = kind)), cursor) := by
  rw [check, run_bind, run_peek_formed formed]
  rfl

theorem run_accept_true (same : cursor.token.kind = kind) :
    accept kind cursor = (.ok true, behind cursor) := by
  rw [accept, run_bind, run_check formed]
  simp only [same, decide_true, if_true]
  rw [run_bind, run_advance formed]
  rfl

theorem run_accept_false (other : cursor.token.kind ≠ kind) :
    accept kind cursor = (.ok false, cursor) := by
  rw [accept, run_bind, run_check formed]
  simp [other]

theorem run_expect (same : cursor.token.kind = kind) (expectation : Expectation) :
    expect kind expectation cursor = (.ok cursor.token, behind cursor) := by
  rw [expect, run_bind, run_check formed]
  simp only [same, decide_true, if_true]
  exact run_advance formed

/-- A chain ends where no operator follows. -/
theorem run_chainFrom_end {operator? : Kind → Option (α → α → α)}
    (none : operator? cursor.token.kind = none) (operand : Parser α) (fuel : Nat) (left : α) :
    chainFrom operator? operand fuel left cursor = (.ok left, cursor) := by
  cases fuel with
  | zero => rfl
  | succ fuel =>
    rw [chainFrom, run_bind, run_peek_formed formed]
    simp only [none]
    rfl

/-- A chain goes on with an operator and an operand. -/
theorem run_chainFrom_step {operator? : Kind → Option (α → α → α)} {combine : α → α → α}
    (found : operator? cursor.token.kind = some combine) {operand : Parser α} {right : α}
    {after : Cursor} (ran : operand (behind cursor) = (.ok right, after)) (fuel : Nat) (left : α) :
    chainFrom operator? operand (fuel + 1) left cursor =
      chainFrom operator? operand fuel (combine left right) after := by
  rw [chainFrom, run_bind, run_peek_formed formed]
  simp only [found]
  rw [run_bind, run_advance formed]
  show (operand >>= _) (behind cursor) = _
  rw [run_bind, ran]

end Looking

section Values

variable {parser : Parser α} {cursor after : Cursor}

/-- A run that gives a value has given one at its first step. -/
theorem ok_bind {next : α → Parser β} {value : β}
    (done : (parser >>= next) cursor = (.ok value, after)) :
    ∃ first middle, parser cursor = (.ok first, middle) ∧
      next first middle = (.ok value, after) := by
  rw [run_bind] at done
  split at done
  next first middle ran => exact ⟨first, middle, ran, done⟩
  next => cases done

theorem ok_peek {token : Token} (done : peek cursor = (.ok token, after)) :
    cursor.token.problem? = none ∧ token = cursor.token ∧ after = cursor := by
  rw [run_peek] at done
  split at done
  next => cases done
  next formed =>
    cases done
    exact ⟨formed, rfl, rfl⟩

theorem ok_peekSecond {token : Token} (done : peekSecond cursor = (.ok token, after)) :
    cursor.following.problem? = none ∧ token = cursor.following ∧ after = cursor := by
  rw [run_peekSecond] at done
  split at done
  next => cases done
  next formed =>
    cases done
    exact ⟨formed, rfl, rfl⟩

theorem ok_advance {token : Token} (done : advance cursor = (.ok token, after)) :
    cursor.token.problem? = none ∧ token = cursor.token ∧ after = behind cursor := by
  cases formed : cursor.token.problem? with
  | none =>
    rw [run_advance formed] at done
    cases done
    exact ⟨rfl, rfl, rfl⟩
  | some problem =>
    rw [advance, run_bind, run_peek, formed] at done
    cases done

theorem not_ok_fail {expectation : Expectation} {value : α} :
    (fail expectation : Parser α) cursor ≠ (.ok value, after) := by
  intro done
  rw [fail] at done
  obtain ⟨token, middle, -, thrown⟩ := ok_bind done
  cases thrown

theorem ok_check {kind : Kind} {found : Bool} (done : check kind cursor = (.ok found, after)) :
    cursor.token.problem? = none ∧ found = decide (cursor.token.kind = kind) ∧ after = cursor := by
  rw [check] at done
  obtain ⟨token, middle, peeked, last⟩ := ok_bind done
  obtain ⟨formed, rfl, rfl⟩ := ok_peek peeked
  cases last
  exact ⟨formed, rfl, rfl⟩

theorem ok_accept {kind : Kind} {found : Bool} (done : accept kind cursor = (.ok found, after)) :
    cursor.token.problem? = none ∧
      (found = true ∧ cursor.token.kind = kind ∧ after = behind cursor ∨
        found = false ∧ cursor.token.kind ≠ kind ∧ after = cursor) := by
  rw [accept] at done
  obtain ⟨isKind, middle, checked, last⟩ := ok_bind done
  obtain ⟨formed, rfl, rfl⟩ := ok_check checked
  refine ⟨formed, ?_⟩
  by_cases same : middle.token.kind = kind
  · rw [if_pos (by simpa using same)] at last
    obtain ⟨token, middle, advanced, last⟩ := ok_bind last
    obtain ⟨-, -, rfl⟩ := ok_advance advanced
    cases last
    exact .inl ⟨rfl, same, rfl⟩
  · rw [if_neg (by simpa using same)] at last
    cases last
    exact .inr ⟨rfl, same, rfl⟩

theorem ok_expect {kind : Kind} {expectation : Expectation} {token : Token}
    (done : expect kind expectation cursor = (.ok token, after)) :
    cursor.token.problem? = none ∧ cursor.token.kind = kind ∧ token = cursor.token ∧
      after = behind cursor := by
  rw [expect] at done
  obtain ⟨isKind, middle, checked, last⟩ := ok_bind done
  obtain ⟨formed, rfl, rfl⟩ := ok_check checked
  by_cases same : middle.token.kind = kind
  · rw [if_pos (by simpa using same)] at last
    obtain ⟨-, rfl, rfl⟩ := ok_advance last
    exact ⟨formed, same, rfl, rfl⟩
  · rw [if_neg (by simpa using same)] at last
    exact absurd last not_ok_fail

theorem attempt_cases {parser : Parser (Option α)} {outcome : Except Problem (Option α)}
    (done : attempt parser cursor = (outcome, after)) :
    (∃ value, outcome = .ok (some value) ∧ parser cursor = (.ok (some value), after)) ∨
      (outcome = .ok none ∧ after = { cursor with wildcards := after.wildcards }) ∨
      ∃ problem, problem.isFatal = true ∧ outcome = .error problem ∧
        parser cursor = (.error problem, after) := by
  unfold attempt at done
  split at done
  next value middle ran =>
    cases done
    exact .inl ⟨value, rfl, ran⟩
  next =>
    cases done
    exact .inr (.inl ⟨rfl, rfl⟩)
  next problem failed ran =>
    split at done
    next fatal =>
      cases done
      exact .inr (.inr ⟨problem, fatal, rfl, ran⟩)
    next =>
      cases done
      exact .inr (.inl ⟨rfl, rfl⟩)

/-- Behind an operand there is an operator that goes on, or the chain ends. -/
theorem chainFrom_ends {operator? : Kind → Option (α → α → α)} {operand : Parser α} {fuel : Nat}
    {left value : α}
    (done : chainFrom operator? operand (fuel + 1) left cursor = (.ok value, after)) :
    (operator? cursor.token.kind).isSome = true ∨ after = cursor := by
  rw [chainFrom] at done
  obtain ⟨token, middle, peeked, rest⟩ := ok_bind done
  obtain ⟨-, rfl, rfl⟩ := ok_peek peeked
  cases found : operator? middle.token.kind with
  | some combine => exact .inl rfl
  | none =>
    rw [found] at rest
    cases rest
    exact .inr rfl

theorem chain_begins {operator? : Kind → Option (α → α → α)} {operand : Parser α} {value : α}
    (done : chain operator? operand cursor = (.ok value, after)) :
    ∃ first middle, operand cursor = (.ok first, middle) ∧
      ((operator? middle.token.kind).isSome = true ∨ after = middle) := by
  rw [chain] at done
  obtain ⟨first, middle, ran, rest⟩ := ok_bind done
  rw [run_bind, run_budget] at rest
  exact ⟨first, middle, ran, chainFrom_ends rest⟩

end Values

end Parser

end AgentSpeak.Source
