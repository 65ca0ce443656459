import AgentSpeak.Proofs.Source.Layout
import AgentSpeak.Proofs.Source.Giving

namespace AgentSpeak.Source

theorem Token.formed_of_isSkipped {token : Token} (skipped : token.isSkipped = true) :
    token.problem? = none := by
  obtain ⟨kind, text, position, terminated⟩ := token
  cases kind <;> cases terminated <;> first | rfl | cases skipped

/-- The tokens of a text whose tokens are well-formed, and of another one on the next line. -/
theorem scan_line {text : List Char} {position : Position}
    (formed : ∀ token ∈ scan position text, token.problem? = none) (more : List Char) :
    scan position (text ++ '\n' :: more) =
      scan position text ++ scan ((position.after text).next '\n') more := by
  have closed : ∀ token ∈ visible position text, token.Closed ('\n' :: more) := by
    intro token member
    refine ⟨?_, fun _ => rfl⟩
    cases skipped : token.isSkipped with
    | true => exact Token.formed_of_isSkipped skipped
    | false => exact formed token (by rw [scan_eq_filter]; simp [member, skipped])
  rw [scan_eq_filter, visible_append (detached_blank rfl more) closed, List.filter_append,
    ← scan_eq_filter, ← scan_eq_filter, scan_blank rfl]

namespace Parser

variable {α β : Type} {parser : Parser α} {cursor middle : Cursor} {problem : Problem}

/-- A parser ends with a problem. -/
def Reports (parser : Parser α) (cursor : Cursor) (problem : Problem) : Prop :=
  ∃ after, parser cursor = (.error problem, after)

theorem Reports.bind (reports : Reports parser cursor problem) (next : α → Parser β) :
    Reports (parser >>= next) cursor problem := by
  obtain ⟨after, ran⟩ := reports
  exact ⟨after, by rw [run_bind, ran]⟩

theorem Reports.behind {next : α → Parser β} {value : α}
    (ran : parser cursor = (.ok value, middle)) (reports : Reports (next value) middle problem) :
    Reports (parser >>= next) cursor problem := by
  obtain ⟨after, last⟩ := reports
  exact ⟨after, (run_then ran next).trans last⟩

section Looking

variable (malformed : cursor.token.problem? = some problem)

include malformed

theorem run_peek_malformed : peek cursor = (.error problem, cursor) := by
  rw [run_peek, malformed]

theorem run_advance_malformed : advance cursor = (.error problem, cursor) := by
  rw [advance, run_bind, run_peek_malformed malformed]

end Looking

/-- Two runs of a parser that differ in one token ahead, which is malformed in the second one. Either
this one ends with the token's problem, or both do the same and end before the token. -/
def Meets (token bad : Token) (problem : Problem) (tokens rest : List Token) (finish : Token)
    (w : Nat) (parser : Parser α) : Prop :=
  Reports parser ⟨tokens ++ bad :: rest, finish, w⟩ problem ∨ ∃ outcome left w',
    parser ⟨tokens ++ token :: rest, finish, w⟩ = (outcome, ⟨left ++ token :: rest, finish, w'⟩) ∧
      parser ⟨tokens ++ bad :: rest, finish, w⟩ = (outcome, ⟨left ++ bad :: rest, finish, w'⟩)

/-- A parser that takes nothing back. -/
class Steady (parser : Parser α) : Prop where
  shortens : ∀ {cursor outcome after}, parser cursor = (outcome, after) →
    after.upcoming.length ≤ cursor.upcoming.length
  meets : ∀ {bad problem}, bad.problem? = some problem → ∀ token tokens rest finish w,
    Meets token bad problem tokens rest finish w parser

instance (value : α) : Steady (pure value : Parser α) where
  shortens := by
    rintro cursor _ _ ⟨⟩
    exact Nat.le_refl _
  meets _ _ tokens _ _ w := .inr ⟨_, tokens, w, rfl, rfl⟩

instance (problem : Problem) : Steady (throw problem : Parser α) where
  shortens := by
    rintro cursor _ _ ⟨⟩
    exact Nat.le_refl _
  meets _ _ tokens _ _ w := .inr ⟨_, tokens, w, rfl, rfl⟩

instance : Steady wildcard where
  shortens := by
    rintro cursor _ _ ⟨⟩
    exact Nat.le_refl _
  meets _ _ tokens _ _ w := .inr ⟨_, tokens, w + 1, rfl, rfl⟩

instance : Steady budget where
  shortens := by
    rintro cursor _ _ ⟨⟩
    exact Nat.le_refl _
  meets _ token tokens rest finish w := by
    refine .inr ⟨_, tokens, w, run_budget _, ?_⟩
    rw [run_budget, List.length_append, List.length_append]
    rfl

instance : Steady peek where
  shortens ran := by
    rw [run_peek] at ran
    split at ran <;> cases ran <;> exact Nat.le_refl _
  meets malformed token tokens rest finish w := by
    cases tokens with
    | nil => exact .inl ⟨_, run_peek_malformed malformed⟩
    | cons first tokens =>
      cases formed : first.problem? with
      | none =>
        exact .inr ⟨.ok first, first :: tokens, w, run_peek_formed formed, run_peek_formed formed⟩
      | some problem =>
        exact .inr ⟨.error problem, first :: tokens, w, run_peek_malformed formed,
          run_peek_malformed formed⟩

instance : Steady advance where
  shortens {cursor _ _} ran := by
    cases formed : cursor.token.problem? with
    | none =>
      rw [run_advance formed] at ran
      cases ran
      exact List.length_tail ▸ Nat.sub_le _ _
    | some problem =>
      rw [run_advance_malformed formed] at ran
      cases ran
      exact Nat.le_refl _
  meets malformed token tokens rest finish w := by
    cases tokens with
    | nil => exact .inl ⟨_, run_advance_malformed malformed⟩
    | cons first tokens =>
      cases formed : first.problem? with
      | none => exact .inr ⟨.ok first, tokens, w, run_advance formed, run_advance formed⟩
      | some problem =>
        exact .inr ⟨.error problem, first :: tokens, w, run_advance_malformed formed,
          run_advance_malformed formed⟩

theorem Steady.bind {next : α → Parser β} (first : Steady parser)
    (rest : ∀ value, Steady (next value)) : Steady (parser >>= next) where
  shortens {cursor _ _} ran := by
    rw [run_bind] at ran
    split at ran
    next value _ begun => exact Nat.le_trans ((rest value).shortens ran) (first.shortens begun)
    next begun =>
      cases ran
      exact first.shortens begun
  meets malformed token tokens behind finish w := by
    rcases first.meets malformed token tokens behind finish w with
      reports | ⟨outcome, left, w', ran, ran'⟩
    · exact .inl (reports.bind next)
    · cases outcome with
      | error problem =>
        exact .inr ⟨.error problem, left, w', by rw [run_bind, ran], by rw [run_bind, ran']⟩
      | ok value =>
        rcases (rest value).meets malformed token left behind finish w' with
          reports | ⟨outcome, last, w'', onward, onward'⟩
        · exact .inl (reports.behind ran')
        · exact .inr ⟨outcome, last, w'', (run_then ran next).trans onward,
            (run_then ran' next).trans onward'⟩

instance {next : α → Parser β} [first : Steady parser] [rest : ∀ value, Steady (next value)] :
    Steady (parser >>= next) :=
  first.bind rest

instance {condition : Prop} [Decidable condition] {another : Parser α} [Steady parser]
    [Steady another] : Steady (if condition then parser else another) := by
  split <;> infer_instance

instance (kind : Kind) : Steady (check kind) := by
  unfold check
  infer_instance

instance (kind : Kind) : Steady (accept kind) := by
  unfold accept
  infer_instance

instance (expectation : Expectation) : Steady (fail expectation : Parser α) := by
  unfold fail
  infer_instance

instance (kind : Kind) (expectation : Expectation) : Steady (expect kind expectation) := by
  unfold expect
  infer_instance

section Chains

variable {operator? : Kind → Option (α → α → α)} [Steady parser]

instance (fuel : Nat) (left : α) : Steady (chainFrom operator? parser fuel left) := by
  induction fuel generalizing left with
  | zero => exact inferInstanceAs (Steady (pure left))
  | succ fuel ih =>
    refine Steady.bind inferInstance fun token => ?_
    cases operator? token.kind <;> infer_instance

instance : Steady (chain operator? parser) := by
  unfold chain
  infer_instance

instance (fuel : Nat) : Steady (commaSeparated parser fuel) := by
  induction fuel with
  | zero => exact inferInstanceAs (Steady (pure []))
  | succ fuel ih =>
    unfold commaSeparated
    infer_instance

omit [Steady parser] in
/-- A problem of an operand is one of the chain. -/
theorem reports_chainFrom (formed : cursor.token.problem? = none) {combine : α → α → α}
    (found : operator? cursor.token.kind = some combine)
    (reports : Reports parser (behind cursor) problem) (fuel : Nat) (left : α) :
    Reports (chainFrom operator? parser (fuel + 1) left) cursor problem := by
  rw [chainFrom]
  refine .behind (run_peek_formed formed) ?_
  rw [found]
  exact .behind (run_advance formed) (reports.bind _)

/-- A chain that leaves tokens has looked at the first one of them. -/
theorem chainFrom_looks {fuel : Nat} {left value : α} {after : Cursor}
    (enough : cursor.upcoming.length < fuel) (some : 0 < after.upcoming.length)
    (done : chainFrom operator? parser fuel left cursor = (.ok value, after)) :
    after.token.problem? = none := by
  induction fuel generalizing left cursor with
  | zero => exact absurd enough (Nat.not_lt_zero _)
  | succ fuel ih =>
    rw [chainFrom] at done
    obtain ⟨token, cursor, peeked, rest⟩ := ok_bind done
    obtain ⟨formed, rfl, rfl⟩ := ok_peek peeked
    cases found : operator? cursor.token.kind with
    | none =>
      rw [found] at rest
      cases rest
      exact formed
    | some combine =>
      rw [found] at rest
      obtain ⟨_, _, advanced, rest⟩ := ok_bind rest
      obtain ⟨-, rfl, rfl⟩ := ok_advance advanced
      obtain ⟨right, middle, ran, rest⟩ := ok_bind rest
      have shorter : middle.upcoming.length ≤ cursor.upcoming.tail.length := Steady.shortens ran
      have remaining := Steady.shortens rest
      rw [List.length_tail] at shorter
      exact ih (by omega) rest

theorem chain_looks {value : α} {after : Cursor} (some : 0 < after.upcoming.length)
    (done : chain operator? parser cursor = (.ok value, after)) : after.token.problem? = none := by
  obtain ⟨first, middle, ran, rest⟩ := ok_bind done
  rw [run_then (run_budget middle)] at rest
  exact chainFrom_looks (Nat.lt_succ_self _) some rest

end Chains

theorem read_of_reports {text : String}
    (reports : Reports (do let value ← parser; finish; return value) (start text) problem) :
    parser.read text = .error (.ofProblem (Text.lines text) problem) := by
  obtain ⟨after, ran⟩ := reports
  rw [Parser.read, ran]

/-- Behind a full stop nothing but the end of the input is looked for. -/
theorem reports_finish {dot bad last : Token} {rest : List Token} {w : Nat} (kind : dot.kind = .dot)
    (malformed : bad.problem? = some problem) :
    Reports finish ⟨dot :: bad :: rest, last, w⟩ problem := by
  have formed : dot.problem? = none := formed_of_kind kind (by decide)
  refine .behind (@run_accept_true ⟨dot :: bad :: rest, last, w⟩ _ formed kind) ?_
  have looked : Reports peek ⟨bad :: rest, last, w⟩ problem := ⟨_, run_peek_malformed malformed⟩
  exact ((looked.bind _).bind _).bind _

end Parser

end AgentSpeak.Source
