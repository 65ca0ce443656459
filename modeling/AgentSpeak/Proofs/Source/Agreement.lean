import AgentSpeak.Proofs.Source.Run
import Mathlib.Data.Option.Defs

/-!
Two runs of a parser on the same tokens in different surroundings.

A token of one run has the kind and the text of its counterpart, at another place of the text.
Behind the tokens that both runs read there may stand anything in the second one, as long as it does
not carry on what was read; in the first one there is a full stop, the end of a block or the end of the
input, which no part of a term or formula reads. The second run has seen some more wildcards.
-/

namespace AgentSpeak.Source

/-- A token moved to another place of a text. -/
structure Token.Moved (distance : Nat) (token moved : Token) : Prop where
  kind : moved.kind = token.kind
  text : moved.text = token.text
  terminated : moved.terminated = token.terminated
  offset : moved.position.offset = token.position.offset + distance

namespace Token

variable {distance : Nat} {token moved : Token}

theorem Moved.problem (same : token.Moved distance moved) :
    moved.problem? = none ↔ token.problem? = none := by
  unfold problem?
  rw [same.kind, same.terminated]
  split <;> simp

theorem problem_token {problem : Problem} (found : token.problem? = some problem) :
    problem.token = token := by
  unfold problem? at found
  split at found <;> cases found <;> rfl

theorem Moved.stop (same : token.Moved distance moved) : moved.stop = token.stop + distance := by
  rw [Token.stop, Token.stop, same.text, same.offset]
  omega

end Token

/-- The tokens that end a term whatever stands before them: no operator and no parenthesis. -/
def Kind.endsTerm : Kind → Bool
  | .openParen | .plus | .minus | .star | .slash | .divWord | .modWord | .power => false
  | _ => true

/-- The token behind what a parser is to read. -/
def edge (rest : List Token) (finish : Token) : Token :=
  rest.head?.getD finish

/-- The kinds of tokens that stand behind what the first of two runs reads. -/
def Kind.closes : Kind → Bool
  | .dot | .closeBrace | .endOfInput => true
  | _ => false

/-- The surroundings of two runs: what stands behind the tokens that both read, how far the second
one is behind the first in the text and in the count of wildcards, and which tokens are there. -/
structure Surroundings where
  rest : List Token
  other : List Token
  finish : Token
  last : Token
  distance : Nat
  shift : Nat
  allowed : Token → Prop

namespace Surroundings

variable (S : Surroundings)

/-- The first token behind those that are read. -/
def edge : Token :=
  S.rest.head?.getD S.finish

/-- The counterpart of the first token behind those that are read. -/
def otherEdge : Token :=
  S.other.head?.getD S.last

/-- The same kind of token stands behind both. -/
def Alike : Prop :=
  S.otherEdge.kind = S.edge.kind

/-- Nothing carries on what is read. -/
structure Fit : Prop where
  ends : S.edge.kind.closes = true
  quiet : S.otherEdge.kind.endsTerm = true
  wellFormed : S.otherEdge.problem? = none

def first (tokens : List Token) (wildcards : Nat) : Cursor :=
  ⟨tokens ++ S.rest, S.finish, wildcards⟩

def second (tokens : List Token) (wildcards : Nat) : Cursor :=
  ⟨tokens ++ S.other, S.last, wildcards + S.shift⟩

/-- Tokens of the first run and their counterparts. -/
inductive Paired : List Token → List Token → Prop where
  | nil : Paired [] []
  | cons {token counterpart : Token} {tokens counterparts : List Token}
      (moved : token.Moved S.distance counterpart) (own : S.allowed token)
      (rest : Paired tokens counterparts) : Paired (token :: tokens) (counterpart :: counterparts)

/-- A problem lies at a token that was there or behind all of them. -/
def Located (problem : Problem) : Prop :=
  S.allowed problem.token ∨ problem.token = S.edge

end Surroundings

namespace Surroundings

variable {S : Surroundings} {tokens counterparts : List Token} {token : Token} {w : Nat}

@[simp] theorem first_nil_token : (S.first [] w).token = S.edge := rfl

@[simp] theorem second_nil_token : (S.second [] w).token = S.otherEdge := rfl

@[simp] theorem first_cons_token : (S.first (token :: tokens) w).token = token := rfl

@[simp] theorem second_cons_token : (S.second (token :: tokens) w).token = token := rfl

theorem Fit.edge_formed (fit : S.Fit) : S.edge.problem? = none := by
  have closes := fit.ends
  unfold Token.problem?
  split <;> simp_all [Kind.closes]

theorem Paired.length_eq (paired : S.Paired tokens counterparts) :
    counterparts.length = tokens.length := by
  induction paired with
  | nil => rfl
  | cons moved own rest ih => rw [List.length_cons, List.length_cons, ih]

/-- Neither of the tokens behind is of a kind. -/
def Lacks (S : Surroundings) (kind : Kind) : Prop :=
  S.edge.kind ≠ kind ∧ S.otherEdge.kind ≠ kind

theorem Fit.edge_ne (fit : S.Fit) {kind : Kind} (inner : kind.closes = false) :
    S.edge.kind ≠ kind := by
  rintro rfl
  cases fit.ends.symm.trans inner

theorem Fit.lacks (fit : S.Fit) {kind : Kind} (continues : kind.endsTerm = false) :
    S.Lacks kind := by
  refine ⟨fit.edge_ne ?_, ?_⟩
  · cases kind <;> simp_all [Kind.endsTerm, Kind.closes]
  · rintro rfl
    simp [fit.quiet] at continues

theorem Fit.lacks_of_alike (fit : S.Fit) (alike : S.Alike) {kind : Kind}
    (inner : kind.closes = false) : S.Lacks kind :=
  ⟨fit.edge_ne inner, alike ▸ fit.edge_ne inner⟩

end Surroundings

/-- Tokens read from the front of others, none of which is malformed. -/
def Consumed (before after : List Token) : Prop :=
  ∃ used, before = used ++ after ∧ ∀ token ∈ used, token.problem? = none

section Consumed

variable {one two three : List Token} {token : Token}

theorem Consumed.refl (tokens : List Token) : Consumed tokens tokens :=
  ⟨[], rfl, by simp⟩

theorem Consumed.trans (first : Consumed one two) (second : Consumed two three) :
    Consumed one three := by
  obtain ⟨used, rfl, formed⟩ := first
  obtain ⟨more, rfl, formed'⟩ := second
  refine ⟨used ++ more, by simp, fun token member => ?_⟩
  rcases List.mem_append.mp member with old | new
  · exact formed token old
  · exact formed' token new

theorem consumed_cons (formed : token.problem? = none) (tokens : List Token) :
    Consumed (token :: tokens) tokens :=
  ⟨[token], rfl, by simpa using formed⟩

theorem Consumed.length_le (consumed : Consumed one two) : two.length ≤ one.length := by
  obtain ⟨used, rfl, -⟩ := consumed
  simp

end Consumed

/-- Both runs give values that are related, or both report a problem that ends the reading at once or
that does not. -/
inductive Outcomes {α : Type} (related : α → α → Prop) :
    Except Problem α → Except Problem α → Prop where
  | ok (values : related value other) : Outcomes related (.ok value) (.ok other)
  | error (fatal : another.isFatal = problem.isFatal) :
      Outcomes related (.error problem) (.error another)

namespace Parser

variable {α β : Type}

/-- From a pair of cursors the first run ends before what stands behind its tokens. If it ends
before the last of them, succeeds where it is to be relied on, or has the same kind of token behind
it as the second run, then this one does the same. -/
def Agree (S : Surroundings) (firm : Prop) (wildcards : Nat) (tokens counterparts : List Token)
    (parser another : Parser α) (related : Nat → α → α → Prop) : Prop :=
  ∃ outcome left wildcards',
    parser (S.first tokens wildcards) = (outcome, S.first left wildcards') ∧
    Consumed tokens left ∧ wildcards ≤ wildcards' ∧
    (∀ problem, outcome = .error problem → S.Located problem) ∧
    (firm ∧ outcome.isOk ∨ left ≠ [] ∨ S.Alike →
      ∃ outcome' left', another (S.second counterparts wildcards) =
          (outcome', S.second left' wildcards') ∧
        S.Paired left left' ∧ Outcomes (related wildcards') outcome outcome')

section Agreement

variable {S : Surroundings} {firm : Prop} {w : Nat} {p q : List Token}
  {parser another : Parser α} {related : Nat → α → α → Prop}

theorem Agree.mono {weaker : Nat → α → α → Prop} (agree : Agree S firm w p q parser another related)
    (more : ∀ w', w ≤ w' → ∀ value value', related w' value value' → weaker w' value value') :
    Agree S firm w p q parser another weaker := by
  obtain ⟨outcome, left, w', ran, consumed, later, located, same⟩ := agree
  refine ⟨outcome, left, w', ran, consumed, later, located, fun reliable => ?_⟩
  obtain ⟨outcome', left', ranAgain, paired, outcomes⟩ := same reliable
  refine ⟨outcome', left', ranAgain, paired, ?_⟩
  cases outcomes with
  | ok values => exact .ok (more w' later _ _ values)
  | error fatal => exact .error fatal

theorem agree_pure {value value' : α} (paired : S.Paired p q) (values : related w value value') :
    Agree S firm w p q (pure value) (pure value') related := by
  refine ⟨.ok value, p, w, rfl, .refl p, Nat.le_refl w, ?_, fun _ => ?_⟩
  · intro _ same
    cases same
  · exact ⟨.ok value', q, rfl, paired, .ok values⟩

theorem agree_throw {problem problem' : Problem} (paired : S.Paired p q)
    (located : S.Located problem) (fatal : problem'.isFatal = problem.isFatal) :
    Agree S firm w p q (throw problem) (throw problem') related := by
  refine ⟨.error problem, p, w, rfl, .refl p, Nat.le_refl w, ?_, fun _ => ?_⟩
  · intro _ same
    cases same
    exact located
  · exact ⟨.error problem', q, rfl, paired, .error fatal⟩

theorem Agree.bind {next next' : α → Parser β} {related' : Nat → β → β → Prop}
    (first : Agree S True w p q parser another related)
    (rest : ∀ w' left left' value value', w ≤ w' → Consumed p left → S.Paired left left' →
      related w' value value' → Agree S firm w' left left' (next value) (next' value') related') :
    Agree S firm w p q (parser >>= next) (another >>= next') related' := by
  obtain ⟨outcome, left, w', ran, consumed, later, located, same⟩ := first
  cases outcome with
  | error problem =>
    refine ⟨.error problem, left, w', by rw [run_bind, ran], consumed, later, ?_,
      fun reliable => ?_⟩
    · intro _ equal
      cases equal
      exact located problem rfl
    · obtain ⟨outcome', left', ranAgain, paired, outcomes⟩ :=
        same (.inr (reliable.resolve_left fun both => nomatch both.2))
      cases outcomes with
      | error fatal => exact ⟨.error _, left', by rw [run_bind, ranAgain], paired, .error fatal⟩
  | ok value =>
    obtain ⟨outcome', left', ranAgain, paired, outcomes⟩ := same (.inl ⟨trivial, rfl⟩)
    cases outcomes with
    | @ok _ value' values =>
      obtain ⟨last, final, w'', ranNext, consumedNext, laterNext, locatedNext, sameNext⟩ :=
        rest w' left left' value value' later consumed paired values
      refine ⟨last, final, w'', by rw [run_bind, ran]; exact ranNext, consumed.trans consumedNext,
        Nat.le_trans later laterNext, locatedNext, fun reliable => ?_⟩
      obtain ⟨last', final', ranLast, pairedLast, outcomesLast⟩ := sameNext reliable
      exact ⟨last', final', by rw [run_bind, ranAgain]; exact ranLast, pairedLast, outcomesLast⟩

theorem Agree.map {f f' : α → β} {related' : Nat → β → β → Prop}
    (agree : Agree S firm w p q parser another related)
    (values : ∀ w' value value', w ≤ w' → related w' value value' →
      related' w' (f value) (f' value')) :
    Agree S firm w p q (parser >>= fun value => pure (f value))
      (another >>= fun value => pure (f' value)) related' := by
  obtain ⟨outcome, left, w', ran, consumed, later, located, same⟩ := agree
  have mapped : ∀ (parser : Parser α) (f : α → β) cursor outcome after,
      parser cursor = (outcome, after) →
      (parser >>= fun value => pure (f value)) cursor = (outcome.map f, after) := by
    intro parser f cursor outcome after ran
    rw [run_bind, ran]
    cases outcome <;> rfl
  refine ⟨outcome.map f, left, w', mapped _ _ _ _ _ ran, consumed, later, ?_, fun reliable => ?_⟩
  · intro problem failed
    cases outcome with
    | error problem' =>
      cases failed
      exact located problem rfl
    | ok value => cases failed
  · have unmapped : (outcome.map f).isOk = outcome.isOk := by cases outcome <;> rfl
    rw [unmapped] at reliable
    obtain ⟨outcome', left', ranAgain, paired, outcomes⟩ := same reliable
    refine ⟨outcome'.map f', left', mapped _ _ _ _ _ ranAgain, paired, ?_⟩
    cases outcomes with
    | ok related => exact .ok (values w' _ _ later related)
    | error fatal => exact .error fatal

/-- Nothing is said about a run that ends in front of what stands behind, unless it is to be relied
on or the same stands behind the second run. -/
theorem agree_unlike (unlike : ¬S.Alike) {outcome : Except Problem α} {w' : Nat}
    (ran : parser (S.first [] w) = (outcome, S.first [] w')) (later : w ≤ w')
    (located : ∀ problem, outcome = .error problem → S.Located problem)
    (loose : ¬(firm ∧ outcome.isOk)) : Agree S firm w [] q parser another related := by
  refine ⟨outcome, [], w', ran, .refl [], later, located, fun reliable => ?_⟩
  rcases reliable with both | more | alike
  · exact absurd both loose
  · exact absurd rfl more
  · exact absurd alike unlike

/-- What a run in front of what stands behind does says all that is said where the second run has
something else there. -/
theorem Agree.alone {other : Parser α} (agree : Agree S firm w [] [] parser other related)
    (unlike : ¬S.Alike) : Agree S False w [] [] parser another related := by
  obtain ⟨outcome, left, w', ran, ⟨used, split, -⟩, later, located, -⟩ := agree
  obtain ⟨-, rfl⟩ := List.append_eq_nil_iff.mp split.symm
  exact agree_unlike unlike ran later located fun both => both.1

/-- A parser that needs a token and has none fails. -/
def Stuck (S : Surroundings) (parser : Parser α) : Prop :=
  ∀ w, ∃ problem w', w ≤ w' ∧ parser (S.first [] w) = (.error problem, S.first [] w') ∧
    S.Located problem

theorem Stuck.agree (stuck : Stuck S parser) (unlike : ¬S.Alike) :
    Agree S firm w [] q parser another related := by
  obtain ⟨problem, w', later, ran, located⟩ := stuck w
  refine agree_unlike unlike ran later ?_ fun both => nomatch both.2
  rintro _ ⟨⟩
  exact located

theorem Agree.stuck {next : α → Parser β} {related : Nat → Nat → α → α → Prop}
    (first : ∀ w, Agree S firm w [] [] parser another (related w))
    (rest : ∀ value, Stuck S (next value)) : Stuck S (parser >>= next) := by
  intro w
  obtain ⟨outcome, left, w', ran, ⟨used, split, -⟩, later, located, -⟩ := first w
  obtain ⟨-, rfl⟩ := List.append_eq_nil_iff.mp split.symm
  cases outcome with
  | error problem =>
    exact ⟨problem, w', later, by rw [run_bind, ran], located problem rfl⟩
  | ok value =>
    obtain ⟨problem, w'', laterNext, ranNext, locatedNext⟩ := rest value w'
    exact ⟨problem, w'', Nat.le_trans later laterNext, by rw [run_bind, ran]; exact ranNext,
      locatedNext⟩

/-- What comes behind a loose agreement needs a token. -/
theorem Agree.bind_stuck {next next' : α → Parser β} {related' : Nat → β → β → Prop}
    (first : Agree S False w p q parser another related)
    (rest : ∀ w' left left' value value', w ≤ w' → Consumed p left → S.Paired left left' →
      related w' value value' → Agree S firm w' left left' (next value) (next' value') related')
    (stuck : ∀ value, Stuck S (next value)) :
    Agree S firm w p q (parser >>= next) (another >>= next') related' := by
  obtain ⟨outcome, left, w', ran, consumed, later, located, same⟩ := first
  by_cases reliable : left ≠ [] ∨ S.Alike
  · refine Agree.bind ⟨outcome, left, w', ran, consumed, later, located, fun _ => ?_⟩ rest
    exact same (.inr reliable)
  · obtain ⟨none, unlike⟩ := not_or.mp reliable
    obtain rfl : left = [] := Decidable.not_not.mp none
    cases outcome with
    | error problem =>
      refine ⟨.error problem, [], w', by rw [run_bind, ran], consumed, later, ?_,
        fun reliable => ?_⟩
      · rintro _ ⟨⟩
        exact located problem rfl
      · exact absurd reliable (by simp [unlike, Except.isOk, Except.toBool])
    | ok value =>
      obtain ⟨problem, w'', laterNext, ranNext, locatedNext⟩ := stuck value w'
      refine ⟨.error problem, [], w'', by rw [run_bind, ran]; exact ranNext, consumed,
        Nat.le_trans later laterNext, ?_, fun reliable => ?_⟩
      · rintro _ ⟨⟩
        exact locatedNext
      · exact absurd reliable (by simp [unlike, Except.isOk, Except.toBool])

variable (fit : S.Fit)

include fit

/-- Where a token is looked at, both runs see a token and its counterpart, or what stands behind. -/
theorem agree_peek {next next' : Token → Parser α} (paired : S.Paired p q)
    (edge : p = [] → q = [] →
      Agree S firm w p q (next S.edge) (next' S.otherEdge) related)
    (inside : ∀ t t' rest rest', p = t :: rest → q = t' :: rest' → t.Moved S.distance t' →
      S.allowed t → t.problem? = none → S.Paired rest rest' →
      Agree S firm w p q (next t) (next' t') related) :
    Agree S firm w p q (peek >>= next) (peek >>= next') related := by
  cases paired with
  | nil =>
    have agree := edge rfl rfl
    unfold Agree at agree ⊢
    rw [run_bind, run_bind, run_peek, run_peek, S.first_nil_token, S.second_nil_token,
      fit.edge_formed, fit.wellFormed]
    exact agree
  | @cons t t' rest rest' moved own others =>
    have agree := inside t t' rest rest' rfl rfl moved own
    unfold Agree at agree ⊢
    rw [run_bind, run_bind, run_peek, run_peek, S.first_cons_token, S.second_cons_token]
    cases formed : t.problem? with
    | none =>
      rw [moved.problem.mpr formed]
      exact agree formed others
    | some problem =>
      obtain ⟨problem', formed'⟩ := Option.ne_none_iff_exists'.mp fun none => by
        rw [moved.problem.mp none] at formed
        cases formed
      rw [formed']
      refine ⟨_, _, w, rfl, .refl _, Nat.le_refl w, ?_, fun _ => ?_⟩
      · rintro _ ⟨⟩
        exact .inl (Token.problem_token formed ▸ own)
      · refine ⟨_, _, rfl, .cons moved own others, .error ?_⟩
        rw [isFatal_of_problem? formed', isFatal_of_problem? formed]

theorem agree_fail (paired : S.Paired p q) (expectation : Expectation) :
    Agree S firm w p q (fail expectation) (fail expectation) related := by
  refine agree_peek fit paired ?_ ?_
  · rintro rfl rfl
    exact agree_throw .nil (.inr rfl) rfl
  · intro t t' rest rest' _ _ _ own _ _
    exact agree_throw paired (.inl own) rfl

/-- A token of a kind that does not stand behind is looked for. -/
theorem agree_check {kind : Kind} {next next' : Bool → Parser α} (lacks : S.Lacks kind)
    (paired : S.Paired p q)
    (found : ∀ t t' rest rest', p = t :: rest → q = t' :: rest' → t.kind = kind →
      t.Moved S.distance t' → S.allowed t → t.problem? = none → S.Paired rest rest' →
      Agree S firm w p q (next true) (next' true) related)
    (missing : Agree S firm w p q (next false) (next' false) related) :
    Agree S firm w p q (check kind >>= next) (check kind >>= next') related := by
  rw [check_bind, check_bind]
  refine agree_peek fit paired ?_ ?_
  · rintro rfl rfl
    simpa [lacks.1, lacks.2] using missing
  · intro t t' rest rest' here there moved own formed others
    rw [moved.kind]
    by_cases same : t.kind = kind
    · simpa [same] using found t t' rest rest' here there same moved own formed others
    · simpa [same] using missing

omit fit in
theorem agree_advance {t t' : Token} {rest rest' : List Token} {next next' : Token → Parser α}
    (moved : t.Moved S.distance t') (formed : t.problem? = none)
    (after : Agree S firm w rest rest' (next t) (next' t') related) :
    Agree S firm w (t :: rest) (t' :: rest') (advance >>= next) (advance >>= next') related := by
  have ran : advance (S.first (t :: rest) w) = (.ok t, S.first rest w) := run_advance formed
  have ranAgain : advance (S.second (t' :: rest') w) = (.ok t', S.second rest' w) :=
    run_advance (moved.problem.mpr formed)
  obtain ⟨outcome, left, w', done, consumed, later, located, same⟩ := after
  refine ⟨outcome, left, w', ?_, (consumed_cons formed rest).trans consumed, later, located,
    fun reliable => ?_⟩
  · rw [run_bind, ran]
    exact done
  · obtain ⟨outcome', left', doneAgain, paired, outcomes⟩ := same reliable
    refine ⟨outcome', left', ?_, paired, outcomes⟩
    rw [run_bind, ranAgain]
    exact doneAgain

/-- A token of a kind that does not stand behind is read if it is there. -/
theorem agree_accept {kind : Kind} {next next' : Bool → Parser α} (lacks : S.Lacks kind)
    (paired : S.Paired p q)
    (found : ∀ t t' rest rest', p = t :: rest → q = t' :: rest' → S.Paired rest rest' →
      Agree S firm w rest rest' (next true) (next' true) related)
    (missing : Agree S firm w p q (next false) (next' false) related) :
    Agree S firm w p q (accept kind >>= next) (accept kind >>= next') related := by
  rw [accept_bind, accept_bind]
  refine agree_peek fit paired ?_ ?_
  · rintro rfl rfl
    rwa [if_neg lacks.1, if_neg lacks.2]
  · intro t t' rest rest' here there moved own formed others
    rw [moved.kind]
    split
    next same =>
      subst here there
      exact agree_advance moved formed (found t t' rest rest' rfl rfl others)
    next => exact missing

theorem stuck_fail (expectation : Expectation) : Stuck S (fail expectation : Parser α) := by
  intro w
  refine ⟨⟨.expected expectation, S.edge, Bool.false_ne_true.elim⟩, w, Nat.le_refl w, ?_, .inr rfl⟩
  rw [fail, run_bind, run_peek, S.first_nil_token, fit.edge_formed]
  rfl

theorem stuck_peek {next : Token → Parser α} (edge : Stuck S (next S.edge)) :
    Stuck S (peek >>= next) := by
  intro w
  rw [run_bind, run_peek, S.first_nil_token, fit.edge_formed]
  exact edge w

theorem stuck_expect {kind : Kind} (inner : kind.closes = false) (expectation : Expectation)
    (next : Token → Parser α) : Stuck S (expect kind expectation >>= next) := by
  rw [expect_bind]
  refine stuck_peek fit ?_
  rw [if_neg (fit.edge_ne inner)]
  exact stuck_fail fit _

theorem stuck_accept {kind : Kind} (inner : kind.closes = false) {next : Bool → Parser α}
    (missing : Stuck S (next false)) : Stuck S (accept kind >>= next) := by
  rw [accept_bind]
  refine stuck_peek fit ?_
  rwa [if_neg (fit.edge_ne inner)]

/-- The next token is looked at only to say where a failure is. -/
theorem agree_peek_located {next next' : Token → Parser α} (paired : S.Paired p q)
    (rest : ∀ first first', S.allowed first ∨ first = S.edge →
      Agree S firm w p q (next first) (next' first') related) :
    Agree S firm w p q (peek >>= next) (peek >>= next') related :=
  agree_peek fit paired (fun _ _ => rest S.edge S.otherEdge (.inr rfl))
    (fun t t' _ _ _ _ _ own _ _ => rest t t' (.inl own))

/-- A token is looked at where one is needed. -/
theorem agree_peek_needed {next next' : Token → Parser α} (expectation : Expectation) (paired : S.Paired p q)
    (needed : ∀ token, token.kind.closes = true → next token = fail expectation)
    (needed' : ∀ token, token.kind.closes = true → next' token = fail expectation)
    (inside : ∀ t t' rest rest', p = t :: rest → q = t' :: rest' → t.Moved S.distance t' →
      S.allowed t → t.problem? = none → S.Paired rest rest' →
      Agree S firm w p q (next t) (next' t') related) :
    Agree S firm w p q (peek >>= next) (peek >>= next') related := by
  have closes := fit.ends
  refine agree_peek fit paired ?_ inside
  rintro rfl rfl
  rw [needed S.edge closes]
  by_cases alike : S.Alike
  · rw [needed' S.otherEdge (alike ▸ closes)]
    exact agree_fail fit .nil _
  · exact (stuck_fail fit _).agree alike

/-- A token of a kind is looked for where one is needed. -/
theorem agree_check_stuck {kind : Kind} {next next' : Bool → Parser α}
    (inner : kind.closes = false) (paired : S.Paired p q)
    (each : ∀ found, Agree S firm w p q (next found) (next' found) related)
    (stuck : Stuck S (next false)) :
    Agree S firm w p q (check kind >>= next) (check kind >>= next') related := by
  by_cases alike : S.Alike
  · exact agree_check fit (fit.lacks_of_alike alike inner) paired
      (fun _ _ _ _ _ _ _ _ _ _ _ => each true) (each false)
  · rw [check_bind, check_bind]
    refine agree_peek fit paired ?_ ?_
    · rintro rfl rfl
      rw [decide_eq_false (fit.edge_ne inner)]
      exact stuck.agree alike
    · intro t t' rest rest' _ _ moved _ _ _
      rw [moved.kind]
      exact each _

omit fit in
theorem agree_wildcard {next next' : Variable → Parser α}
    (after : Agree S firm (w + 1) p q (next (.wildcard (w + 1)))
      (next' (.wildcard (w + S.shift + 1))) related) :
    Agree S firm w p q (wildcard >>= next) (wildcard >>= next') related := by
  obtain ⟨outcome, left, w', ran, consumed, later, located, same⟩ := after
  refine ⟨outcome, left, w', ?_, consumed, by omega, located, fun reliable => ?_⟩
  · rw [run_bind, run_wildcard]
    exact ran
  · obtain ⟨outcome', left', ranAgain, paired, outcomes⟩ := same reliable
    refine ⟨outcome', left', ?_, paired, outcomes⟩
    have behind : S.second q (w + 1) = ⟨q ++ S.other, S.last, w + S.shift + 1⟩ := by
      rw [Surroundings.second, Nat.add_right_comm]
    rw [run_bind, run_wildcard, ← ranAgain, behind]
    rfl

omit fit in
/-- What is read on trial is read by both runs or by neither. -/
theorem agree_attempt {parser another : Parser (Option α)} (alike : S.Alike) (paired : S.Paired p q)
    (agree : Agree S True w p q parser another fun w' => Option.Rel (related w')) :
    Agree S firm w p q (attempt parser) (attempt another) fun w' => Option.Rel (related w') := by
  obtain ⟨outcome, left, w', ran, consumed, later, located, same⟩ := agree
  obtain ⟨outcome', left', ranAgain, paired', outcomes⟩ := same (.inr (.inr alike))
  have none : Agree S firm w p q (fun _ => (.ok none, S.first p w'))
      (fun _ => (.ok none, S.second q w')) fun w' => Option.Rel (related w') :=
    ⟨.ok none, p, w', rfl, .refl p, later, by rintro _ ⟨⟩,
      fun _ => ⟨.ok none, q, rfl, paired, .ok .none⟩⟩
  have some : ∀ value value', related w' value value' →
      Agree S firm w p q (fun _ => (.ok (some value), S.first left w'))
        (fun _ => (.ok (some value'), S.second left' w')) fun w' => Option.Rel (related w') :=
    fun value value' values => ⟨_, left, w', rfl, consumed, later, by rintro _ ⟨⟩,
      fun _ => ⟨_, left', rfl, paired', .ok (.some values)⟩⟩
  unfold Agree attempt
  rw [ran, ranAgain]
  cases outcomes with
  | @error problem problem' fatal =>
    dsimp only
    rw [fatal]
    cases problem.isFatal with
    | true =>
      exact ⟨.error problem, left, w', rfl, consumed, later, located,
        fun _ => ⟨.error problem', left', rfl, paired', .error fatal⟩⟩
    | false => exact none
  | ok values =>
    cases values with
    | none => exact none
    | some values => exact some _ _ values

/-- A token of a kind is read if it is there, where some token is needed. -/
theorem agree_accept_stuck {kind : Kind} {next next' : Bool → Parser α}
    (inner : kind.closes = false) (paired : S.Paired p q)
    (found : ∀ t t' rest rest', p = t :: rest → q = t' :: rest' → S.Paired rest rest' →
      Agree S firm w rest rest' (next true) (next' true) related)
    (missing : Agree S firm w p q (next false) (next' false) related)
    (stuck : Stuck S (next false)) :
    Agree S firm w p q (accept kind >>= next) (accept kind >>= next') related := by
  by_cases alike : S.Alike
  · exact agree_accept fit (fit.lacks_of_alike alike inner) paired found missing
  · rw [accept_bind, accept_bind]
    refine agree_peek fit paired ?_ ?_
    · rintro rfl rfl
      rw [if_neg (fit.edge_ne inner)]
      exact stuck.agree alike
    · intro t t' rest rest' here there moved own formed others
      rw [moved.kind]
      split
      next same =>
        subst here there
        exact agree_advance moved formed (found t t' rest rest' rfl rfl others)
      next => exact missing

/-- A token of a kind is read if it is there. -/
theorem agree_accept_loose {kind : Kind} {next next' : Bool → Parser α}
    (inner : kind.closes = false) (paired : S.Paired p q)
    (found : ∀ t t' rest rest', p = t :: rest → q = t' :: rest' → S.Paired rest rest' →
      Agree S False w rest rest' (next true) (next' true) related)
    (missing : Agree S False w p q (next false) (next' false) related) :
    Agree S False w p q (accept kind >>= next) (accept kind >>= next') related := by
  by_cases alike : S.Alike
  · exact agree_accept fit (fit.lacks_of_alike alike inner) paired found missing
  · rw [accept_bind, accept_bind]
    refine agree_peek fit paired ?_ ?_
    · rintro rfl rfl
      rw [if_neg (fit.edge_ne inner)]
      exact missing.alone alike
    · intro t t' rest rest' here there moved own formed others
      rw [moved.kind]
      split
      next same =>
        subst here there
        exact agree_advance moved formed (found t t' rest rest' rfl rfl others)
      next => exact missing

/-- A token of a kind that does not stand behind is asked for. -/
theorem agree_expect {kind : Kind} {next next' : Token → Parser α} (inner : kind.closes = false)
    (expectation : Expectation) (paired : S.Paired p q)
    (found : ∀ t t' rest rest', p = t :: rest → q = t' :: rest' → t.Moved S.distance t' →
      S.Paired rest rest' → Agree S firm w rest rest' (next t) (next' t') related) :
    Agree S firm w p q (expect kind expectation >>= next) (expect kind expectation >>= next')
      related := by
  rw [expect_bind, expect_bind]
  refine agree_peek fit paired ?_ ?_
  · rintro rfl rfl
    rw [if_neg (fit.edge_ne inner)]
    by_cases alike : S.Alike
    · rw [if_neg (fit.lacks_of_alike alike inner).2]
      exact agree_fail fit .nil _
    · exact (stuck_fail fit _).agree alike
  · intro t t' rest rest' here there moved own formed others
    rw [moved.kind]
    split
    next same =>
      subst here there
      exact agree_advance moved formed (found t t' rest rest' rfl rfl moved others)
    next => exact agree_fail fit paired _

omit fit in
theorem stuck_budget {next : Nat → Parser α} (each : ∀ fuel, 0 < fuel → Stuck S (next fuel)) :
    Stuck S (budget >>= next) := by
  intro w
  rw [run_bind, run_budget]
  exact each _ (Nat.succ_pos _) w

omit fit in
theorem agree_budget {next next' : Nat → Parser α} (paired : S.Paired p q)
    (each : ∀ fuel fuel', p.length < fuel → p.length < fuel' →
      Agree S firm w p q (next fuel) (next' fuel') related) :
    Agree S firm w p q (budget >>= next) (budget >>= next') related := by
  have agree := each ((p ++ S.rest).length + 1) ((q ++ S.other).length + 1)
    (by rw [List.length_append]; omega)
    (by rw [List.length_append, paired.length_eq]; omega)
  unfold Agree at agree ⊢
  rw [run_bind, run_bind, run_budget, run_budget]
  exact agree

end Agreement

end Parser

end AgentSpeak.Source
