import AgentSpeak.Proofs.Source.Layout
import AgentSpeak.Proofs.Source.Orderly

/-!
A part of a text read by itself. On tokens of which the last one is a full stop, one run and another
run on their counterparts in the midst of other tokens go abreast: both read as far and give related
values, or both have a problem. The two may part only where a name stands right behind the last full
stop.
-/

namespace AgentSpeak.Source

open Term (Spelled)

/-- A name stands right behind the last of some tokens. -/
def Touched (tokens rest : List Token) : Prop :=
  ∃ last ∈ tokens.getLast?, last.Touches rest

theorem not_touched_nil (tokens : List Token) : ¬Touched tokens [] := by
  rintro ⟨_, _, _, ⟨⟩, _⟩

theorem getLast?_suffix {tokens last : List Token} (suffix : last <:+ tokens) (some : last ≠ []) :
    tokens.getLast? = last.getLast? := by
  obtain ⟨front, rfl⟩ := suffix
  exact List.getLast?_append_of_ne_nil front some

theorem Touched.of_suffix {tokens last rest : List Token} (touched : Touched last rest)
    (suffix : last <:+ tokens) : Touched tokens rest := by
  have some : last ≠ [] := by
    rintro rfl
    obtain ⟨_, ⟨⟩, -⟩ := touched
  rwa [Touched, getLast?_suffix suffix some]

/-- A name right behind a full stop is the next token. -/
theorem token_of_touches {cursor : Cursor} {dot : Token} (touches : dot.Touches cursor.upcoming) :
    cursor.token.kind = .functor ∧ cursor.token.position.offset = dot.stop := by
  obtain ⟨name, head, functor, place⟩ := touches
  rw [Cursor.token, Option.mem_def.mp head]
  exact ⟨functor, place⟩

/-- Where no name is right behind a full stop, the next token is none. -/
theorem apart_edge {cursor : Cursor} {dot : Token} (ended : cursor.finish.kind = .endOfInput)
    (apart : ¬dot.Touches cursor.upcoming) :
    cursor.token.kind ≠ .functor ∨ cursor.token.position.offset ≠ dot.stop := by
  obtain ⟨_ | ⟨name, rest⟩, finish, w⟩ := cursor
  · exact .inl fun functor => by cases ended.symm.trans functor
  · exact not_and_or.mp fun touches => apart ⟨name, rfl, touches⟩

namespace Surroundings

variable {S T : Surroundings} {p q others others' left left' : List Token} {token token' : Token}

theorem Paired.append (first : S.Paired p q) (second : S.Paired others others') :
    S.Paired (p ++ others) (q ++ others') := by
  induction first with
  | nil => exact second
  | cons moved own rest ih => exact .cons moved own ih

theorem Paired.tail (paired : S.Paired (token :: others) (token' :: others')) :
    S.Paired others others' := by
  cases paired
  assumption

/-- The last tokens are counterparts. -/
theorem Paired.last (paired : S.Paired p q) (closed : token' ∈ q.getLast?) :
    ∃ token ∈ p.getLast?, token.Moved S.distance token' := by
  induction paired with
  | nil => cases closed
  | @cons token _ tokens _ moved own rest ih =>
    cases rest with
    | nil =>
      obtain rfl := Option.some.inj closed
      exact ⟨token, rfl, moved⟩
    | cons moved' own' rest => exact ih closed

/-- Only the distance and the tokens allowed count. -/
theorem Paired.congr (paired : S.Paired p q) (distance : T.distance = S.distance)
    (allowed : ∀ token, S.allowed token → T.allowed token) : T.Paired p q := by
  induction paired with
  | nil => exact .nil
  | cons moved own rest ih => exact .cons (distance ▸ moved) (allowed _ own) ih

/-- Both runs are at sound places. -/
structure Sound (S : Surroundings) : Prop where
  allowed : ∀ token, S.allowed token → Spelled token
  behind : ∀ token ∈ S.other, Spelled token
  finished : S.finish.kind = .endOfInput
  ended : S.last.kind = .endOfInput

theorem Paired.spelled (paired : S.Paired p q) (sound : S.Sound) :
    ∀ token ∈ q, Spelled token := by
  induction paired with
  | nil => simp
  | @cons token counterpart tokens counterparts moved own rest ih =>
    have first := sound.allowed token own
    have same : Spelled counterpart :=
      ⟨fun kind => moved.text ▸ first.functor (moved.kind ▸ kind),
        fun kind => moved.text ▸ first.variableName (moved.kind ▸ kind)⟩
    simpa using ⟨same, ih⟩

theorem Paired.sound (paired : S.Paired p q) (sound : S.Sound) (w : Nat) :
    (S.second q w).Sound := by
  refine ⟨sound.ended, fun token member => ?_⟩
  rcases List.mem_append.mp member with inside | behind
  · exact paired.spelled sound token inside
  · exact sound.behind token behind

/-- Tokens of which the last one is a full stop, and their counterparts. In the first run no name
stands right behind that full stop. -/
structure Facing (S : Surroundings) (p q : List Token) : Prop where
  paired : S.Paired p q
  closed : ∃ dot ∈ p.getLast?, dot.kind = .dot
  apart : ¬Touched p S.rest

/-- Some of the last tokens face their counterparts as well. -/
theorem Facing.suffix (facing : S.Facing p q) (suffix : left <:+ p) (some : left ≠ [])
    (paired : S.Paired left left') : S.Facing left left' := by
  exact ⟨paired, getLast?_suffix suffix some ▸ facing.closed,
    fun touched => facing.apart (touched.of_suffix suffix)⟩

/-- There is a token and its counterpart. -/
theorem Facing.exists_cons (facing : S.Facing p q) :
    ∃ token token' others others', p = token :: others ∧ q = token' :: others' ∧
      token.Moved S.distance token' ∧ S.Paired others others' := by
  obtain ⟨paired, ⟨_, closed, -⟩, -⟩ := facing
  cases paired with
  | nil => cases closed
  | cons moved own rest => exact ⟨_, _, _, _, rfl, rfl, moved, rest⟩

theorem Facing.some (facing : S.Facing p q) : p ≠ [] := by
  obtain ⟨_, _, _, _, rfl, -⟩ := facing.exists_cons
  exact List.cons_ne_nil _ _

/-- Behind a token that is no full stop there are others. -/
theorem Facing.behind (facing : S.Facing (token :: others) (token' :: others'))
    (inner : token.kind ≠ .dot) : S.Facing others others' := by
  refine facing.suffix (List.suffix_cons token others) ?_ facing.paired.tail
  rintro rfl
  obtain ⟨dot, closed, kind⟩ := facing.closed
  obtain rfl : token = dot := by simpa using closed
  exact inner kind

/-- There is a first full stop. -/
theorem Facing.split (facing : S.Facing p q) :
    ∃ front front' dot dot' back back', p = front ++ dot :: back ∧ q = front' ++ dot' :: back' ∧
      S.Paired front front' ∧ S.Paired (dot :: back) (dot' :: back') ∧ dot.kind = .dot ∧
        dot'.kind = .dot := by
  have paired := facing.paired
  induction paired with
  | nil => exact absurd rfl facing.some
  | @cons token counterpart tokens counterparts moved own rest ih =>
    by_cases dot : token.kind = .dot
    · exact ⟨[], [], token, counterpart, tokens, counterparts, rfl, rfl, .nil,
        .cons moved own rest, dot, moved.kind.trans dot⟩
    · obtain ⟨front, front', dot, dot', back, back', rfl, rfl, before, behind, kinds⟩ :=
        ih (facing.behind dot)
      exact ⟨token :: front, counterpart :: front', dot, dot', back, back', rfl, rfl,
        .cons moved own before, behind, kinds⟩

/-- What two runs leave of their tokens. -/
structure Remains (S : Surroundings) (p q left left' : List Token) : Prop where
  paired : S.Paired left left'
  first : left <:+ p
  second : left' <:+ q

theorem Remains.refl (paired : S.Paired p q) : S.Remains p q p q :=
  ⟨paired, List.suffix_refl p, List.suffix_refl q⟩

theorem Remains.cons (remains : S.Remains others others' left left') (token token' : Token) :
    S.Remains (token :: others) (token' :: others') left left' :=
  ⟨remains.paired, remains.first.trans (List.suffix_cons token others),
    remains.second.trans (List.suffix_cons token' others')⟩

end Surroundings

namespace Parser

variable {α β : Type} {S : Surroundings} {w : Nat} {p q : List Token} {parser another : Parser α}
  {related : List Token → α → α → Prop} {last : Prop}

/-- Two runs that go abreast. A value may be given behind the last of the tokens only if this is
told; a problem behind it lies at the token that comes next. -/
inductive Beside (last : Prop) (S : Surroundings) (p q : List Token)
    (related : List Token → α → α → Prop) :
    Except Problem α × Cursor → Except Problem α × Cursor → Prop where
  | ok {value value' : α} {left left' : List Token} {count : Nat}
      (remains : S.Remains p q left left') (some : left ≠ [] ∨ last)
      (values : related left value value') :
      Beside last S p q related (.ok value, S.first left count) (.ok value', S.second left' count)
  | error {problem problem' : Problem} {left left' : List Token} {count : Nat}
      (remains : S.Remains p q left left') (some : left ≠ [] ∨ problem.token = S.edge)
      (fatal : problem'.isFatal = problem.isFatal) :
      Beside last S p q related (.error problem, S.first left count)
        (.error problem', S.second left' count)
  /-- The second run goes on with a name right behind the last token. -/
  | beyond {run run' : Except Problem α × Cursor} (touched : Touched q S.other)
      (farther : run'.2.upcoming.length < S.other.length) :
      Beside last S p q related run run'

/-- Two parsers of which the runs go abreast. -/
abbrev Abreast (last : Prop) (S : Surroundings) (w : Nat) (p q : List Token)
    (parser another : Parser α) (related : List Token → α → α → Prop) : Prop :=
  Beside last S p q related (parser (S.first p w)) (another (S.second q w))

section Steps

variable {left left' : List Token} {run run' : Except Problem α × Cursor}

/-- Runs on what is left go abreast as well. -/
theorem Beside.within (beside : Beside last S left left' related run run')
    (remains : S.Remains p q left left') : Beside last S p q related run run' := by
  cases beside with
  | ok inner more values =>
    refine .ok ⟨inner.paired, inner.first.trans remains.first, inner.second.trans remains.second⟩ ?_ ?_
    · exact more
    · exact values
  | error inner more fatal =>
    exact .error ⟨inner.paired, inner.first.trans remains.first,
      inner.second.trans remains.second⟩ more fatal
  | beyond touched farther => exact .beyond (touched.of_suffix remains.second) farther

/-- Where the second run reads just its tokens and gives a value, the first one gives a related value. -/
theorem Abreast.closes (abreast : Abreast last S w p q parser another related) {value' : α}
    {count' : Nat} (ran : another (S.second q w) = (.ok value', ⟨S.other, S.last, count'⟩)) :
    ∃ value count, parser (S.first p w) = (.ok value, S.first [] count) ∧
      count' = count + S.shift ∧ related [] value value' := by
  unfold Abreast at abreast
  rw [ran] at abreast
  generalize same : (Except.ok value', (⟨S.other, S.last, count'⟩ : Cursor)) = run' at abreast
  generalize ran : parser (S.first p w) = run at abreast ⊢
  cases abreast with
  | @ok value other left left' count remains some values =>
    obtain ⟨values', cursors⟩ := Prod.mk.inj same
    obtain ⟨tokens, -, rfl⟩ := Cursor.mk.inj cursors
    obtain rfl := Except.ok.inj values'
    obtain rfl : left' = [] := List.self_eq_append_left.mp tokens
    obtain rfl : left = [] := List.length_eq_zero_iff.mp remains.paired.length_eq.symm
    exact ⟨value, count, rfl, rfl, values⟩
  | error => cases same
  | beyond touched farther =>
    subst same
    exact absurd farther (Nat.lt_irrefl _)

theorem exists_problem_of_moved {token token' : Token} {distance : Nat} {problem : Problem}
    (moved : token.Moved distance token') (malformed : token.problem? = some problem) :
    ∃ problem', token'.problem? = some problem' ∧ problem'.isFatal = problem.isFatal := by
  obtain ⟨problem', malformed'⟩ := Option.ne_none_iff_exists'.mp
    (mt moved.problem.mp (malformed ▸ Option.some_ne_none problem))
  exact ⟨problem', malformed',
    (isFatal_of_problem? malformed').trans (isFatal_of_problem? malformed).symm⟩

variable (facing : S.Facing p q)

include facing

theorem abreast_pure {value value' : α} (values : related p value value') :
    Abreast last S w p q (pure value) (pure value') related :=
  .ok (.refl facing.paired) (.inl facing.some) values

theorem abreast_throw {problem problem' : Problem} (fatal : problem'.isFatal = problem.isFatal) :
    Abreast last S w p q (throw problem) (throw problem') related :=
  .error (.refl facing.paired) (.inl facing.some) fatal

theorem abreast_peek {next next' : Token → Parser α}
    (rest : ∀ token token' others others', p = token :: others → q = token' :: others' →
      token.Moved S.distance token' → token.problem? = none → 
      Abreast last S w p q (next token) (next' token') related) :
    Abreast last S w p q (peek >>= next) (peek >>= next') related := by
  obtain ⟨token, token', others, others', here, there, moved, -⟩ := facing.exists_cons
  have same : (S.first p w).token = token := by rw [here]; rfl
  have same' : (S.second q w).token = token' := by rw [there]; rfl
  unfold Abreast
  rw [run_bind, run_bind, run_peek, run_peek, same, same']
  cases formed : token.problem? with
  | none =>
    rw [moved.problem.mpr formed]
    exact rest token token' others others' here there moved formed
  | some problem =>
    obtain ⟨problem', formed', fatal⟩ := exists_problem_of_moved moved formed
    rw [formed']
    exact .error (.refl facing.paired) (.inl facing.some) fatal

theorem abreast_fail (expectation expectation' : Expectation) :
    Abreast last S w p q (fail expectation) (fail expectation') related :=
  abreast_peek facing fun _ _ _ _ _ _ _ _ => abreast_throw facing rfl

theorem abreast_check (kind : Kind) :
    Abreast last S w p q (check kind) (check kind) fun _ found found' => found = found' := by
  rw [← bind_pure (check kind), check_bind]
  refine abreast_peek facing fun token token' others others' here there moved formed => ?_
  rw [moved.kind]
  exact abreast_pure facing rfl

theorem abreast_budget {next next' : Nat → Parser α}
    (each : ∀ fuel fuel', p.length < fuel → p.length < fuel' →
      Abreast last S w p q (next fuel) (next' fuel') related) :
    Abreast last S w p q (budget >>= next) (budget >>= next') related := by
  have abreast := each ((p ++ S.rest).length + 1) ((q ++ S.other).length + 1)
    (by rw [List.length_append]; omega)
    (by rw [List.length_append, facing.paired.length_eq]; omega)
  unfold Abreast at abreast ⊢
  rw [run_bind, run_bind, run_budget, run_budget]
  exact abreast

omit facing in
theorem Abreast.map {f f' : α → β} {related' : List Token → β → β → Prop}
    (abreast : Abreast last S w p q parser another related)
    (values : ∀ left value value', related left value value' →
      related' left (f value) (f' value')) :
    Abreast last S w p q (parser >>= fun value => pure (f value))
      (another >>= fun value => pure (f' value)) related' := by
  unfold Abreast at abreast ⊢
  rw [run_bind, run_bind]
  generalize parser (S.first p w) = run at abreast ⊢
  generalize another (S.second q w) = run' at abreast ⊢
  cases abreast with
  | ok remains some related => exact .ok remains some (values _ _ _ related)
  | error remains some fatal => exact .error remains some fatal
  | beyond touched farther =>
    refine .beyond touched ?_
    rcases run' with ⟨_ | _, _⟩ <;> exact farther

omit facing in
/-- A token is read. If no run may end here, it is not the last one. -/
theorem abreast_read {token token' : Token} {others others' : List Token}
    (facing : S.Facing (token :: others) (token' :: others')) (some : others ≠ [] ∨ last)
    (formed : token.problem? = none) :
    Abreast last S w (token :: others) (token' :: others') advance advance
      fun left value value' => value.Moved S.distance value' ∧ left = others := by
  cases facing.paired with
  | cons moved own paired =>
    have ran : advance (S.first (token :: others) w) = (.ok token, S.first others w) :=
      run_advance formed
    have ran' : advance (S.second (token' :: others') w) = (.ok token', S.second others' w) :=
      run_advance (moved.problem.mpr formed)
    unfold Abreast
    rw [ran, ran']
    exact .ok ((Surroundings.Remains.refl paired).cons token token') some ⟨moved, rfl⟩

omit facing in
theorem abreast_advance {token token' : Token} {others others' : List Token}
    (facing : S.Facing (token :: others) (token' :: others')) (inner : token.kind ≠ .dot)
    (formed : token.problem? = none) :
    Abreast last S w (token :: others) (token' :: others') advance advance
      fun left value value' => value.Moved S.distance value' ∧ left = others :=
  abreast_read facing (.inl (facing.behind inner).some) formed

theorem abreast_accept (kind : Kind) (inner : kind ≠ .dot) :
    Abreast last S w p q (accept kind) (accept kind) fun left found found' =>
      found = found' ∧ (found = true → left.length < p.length) := by
  rw [← bind_pure (accept kind), accept_bind]
  refine abreast_peek facing fun token token' others others' here there moved formed => ?_
  rw [moved.kind]
  split
  next same =>
    subst here there
    refine (abreast_advance facing (same ▸ inner) formed).map ?_
    rintro left _ _ ⟨-, rfl⟩
    exact ⟨rfl, fun _ => Nat.lt_succ_self _⟩
  next => exact abreast_pure facing ⟨rfl, nofun⟩

theorem abreast_expect (kind : Kind) (expectation : Expectation) (inner : kind ≠ .dot) :
    Abreast last S w p q (expect kind expectation) (expect kind expectation)
      fun left token token' => token.Moved S.distance token' ∧ left.length < p.length := by
  rw [← bind_pure (expect kind expectation), expect_bind]
  refine abreast_peek facing fun token token' others others' here there moved formed => ?_
  rw [moved.kind]
  split
  next same =>
    subst here there
    refine (abreast_advance facing (same ▸ inner) formed).map ?_
    rintro left value value' ⟨moved, rfl⟩
    exact ⟨moved, Nat.lt_succ_self _⟩
  next => exact abreast_fail facing _ _

/-- A full stop that may be the last token. -/
theorem abreast_stop (expectation : Expectation) :
    Abreast True S w p q (expect .dot expectation) (expect .dot expectation)
      fun _ _ _ => True := by
  rw [← bind_pure (expect .dot expectation), expect_bind]
  refine abreast_peek facing fun token token' others others' here there moved formed => ?_
  rw [moved.kind]
  split
  next =>
    subst here there
    exact (abreast_read facing (.inr trivial) formed).map fun _ _ _ _ => trivial
  next => exact abreast_fail facing _ _

omit facing in
/-- Behind a token that is no full stop there is another one. -/
theorem abreast_peekSecond {token token' : Token} {others others' : List Token}
    {next next' : Token → Parser α} (facing : S.Facing (token :: others) (token' :: others'))
    (inner : token.kind ≠ .dot)
    (rest : ∀ second second', second.Moved S.distance second' →
      Abreast last S w (token :: others) (token' :: others') (next second) (next' second')
        related) :
    Abreast last S w (token :: others) (token' :: others') (peekSecond >>= next)
      (peekSecond >>= next') related := by
  obtain ⟨second, second', more, more', rfl, rfl, moved, -⟩ := (facing.behind inner).exists_cons
  have same : (S.first (token :: second :: more) w).following = second := rfl
  have same' : (S.second (token' :: second' :: more') w).following = second' := rfl
  unfold Abreast
  rw [run_bind, run_bind, run_peekSecond, run_peekSecond, same, same']
  cases formed : second.problem? with
  | none =>
    rw [moved.problem.mpr formed]
    exact rest second second' moved
  | some problem =>
    obtain ⟨problem', formed', fatal⟩ := exists_problem_of_moved moved formed
    rw [formed']
    exact .error (.refl facing.paired) (.inl facing.some) fatal

end Steps

section Sound

variable (sound : S.Sound) (facing : S.Facing p q)

include sound facing

/-- Where two runs have given values, runs on what is left go on. -/
theorem Abreast.bind {next next' : α → Parser β} {related' : List Token → β → β → Prop}
    [Orderly anyToken another] [∀ value, Orderly anyToken (next' value)]
    (first : Abreast False S w p q parser another related)
    (rest : ∀ w' left left' value value', S.Facing left left' → left.length ≤ p.length →
      related left value value' →
        Abreast last S w' left left' (next value) (next' value') related') :
    Abreast last S w p q (parser >>= next) (another >>= next') related' := by
  have here := facing.paired.sound sound w
  unfold Abreast at first ⊢
  rw [run_bind, run_bind]
  generalize parser (S.first p w) = run at first ⊢
  rcases ran : another (S.second q w) with ⟨outcome', after'⟩
  rw [ran] at first
  cases first with
  | @ok value value' left left' count remains some values =>
    have some : left ≠ [] := some.resolve_right id
    exact (rest count left left' value value' (facing.suffix remains.first some remains.paired)
      remains.first.length_le values).within remains
  | error remains some fatal => exact .error remains some fatal
  | beyond touched farther =>
    refine .beyond touched ?_
    cases outcome' with
    | error => exact farther
    | ok value' =>
      obtain ⟨used, passes⟩ := Orderly.passes here ran
      exact Nat.lt_of_le_of_lt (Orderly.length_le _ (passes.sound here)) farther

/-- What is read up to a full stop at most is read in the same way, because there is one among the
tokens. -/
theorem Rereads.abreast {related : Nat → α → α → Prop} (rereads : Rereads parser related) :
    Abreast False S w p q parser parser fun _ => related S.shift := by
  obtain ⟨front, front', dot, dot', back, back', rfl, rfl, before, behind, kind, kind'⟩ :=
    facing.split
  let T : Surroundings := { S with rest := dot :: back ++ S.rest, other := dot' :: back' ++ S.other }
  have edge : T.edge = dot := rfl
  have otherEdge : T.otherEdge = dot' := rfl
  have alike : T.Alike := by
    rw [Surroundings.Alike, edge, otherEdge, kind, kind']
  have first (tokens : List Token) (n : Nat) :
      T.first tokens n = S.first (tokens ++ dot :: back) n := by
    simp [Surroundings.first, T]
  have second (tokens : List Token) (n : Nat) :
      T.second tokens n = S.second (tokens ++ dot' :: back') n := by
    simp [Surroundings.second, T]
  obtain ⟨outcome, left, count, ran, ⟨used, split, -⟩, -, -, again⟩ :=
    rereads T (fit_of_closes (edge ▸ kind ▸ rfl) alike) alike sound.allowed w front front'
      (before.congr rfl fun _ own => own)
  obtain ⟨outcome', left', ran', paired, outcomes⟩ := again (.inr (.inr alike))
  rw [first, first] at ran
  rw [second, second] at ran'
  have orderly : Orderly anyToken parser := rereads.orderly
  obtain ⟨used', passes⟩ := Orderly.passes (facing.paired.sound sound w) ran'
  have suffix : left' ++ dot' :: back' <:+ front' ++ dot' :: back' := by
    have whole : front' ++ dot' :: back' ++ S.other = used' ++ (left' ++ dot' :: back' ++ S.other) :=
      passes.split
    rw [← List.append_assoc] at whole
    exact ⟨used', (List.append_cancel_right whole).symm⟩
  have paired : S.Paired left left' := paired.congr rfl fun _ own => own
  have remains : S.Remains (front ++ dot :: back) (front' ++ dot' :: back') (left ++ dot :: back)
      (left' ++ dot' :: back') :=
    ⟨paired.append behind, ⟨used, by rw [split, List.append_assoc]⟩, suffix⟩
  unfold Abreast
  rw [ran, ran']
  cases outcomes with
  | ok values => exact .ok remains (.inl (by simp)) values
  | error fatal => exact .error remains (.inl (by simp)) fatal

omit sound facing in
/-- In front of a name right behind a full stop, what is read goes on with it. -/
theorem run_named {cursor : Cursor} {dot : Token} (expectation : Expectation)
    (touches : dot.Touches cursor.upcoming) :
    (peek >>= fun name => if name.kind ≠ .functor ∨ name.position.offset ≠ dot.stop
      then throw ⟨.expected expectation, name, nofun⟩ else parser) cursor = parser cursor := by
  obtain ⟨functor, place⟩ := token_of_touches touches
  have formed : cursor.token.problem? = none := by
    unfold Token.problem?
    rw [functor]
  rw [run_then (run_peek_formed formed), if_neg (by simp [functor, place])]

omit sound facing in
/-- In front of a token that is no name right behind a full stop, no name is read. -/
theorem run_nameless (parser : Parser α) {cursor : Cursor} {dot : Token} (expectation : Expectation)
    (apart : cursor.token.kind ≠ .functor ∨ cursor.token.position.offset ≠ dot.stop) :
    ∃ problem, problem.token = cursor.token ∧ problem.isFatal = false ∧
      (peek >>= fun name => if name.kind ≠ .functor ∨ name.position.offset ≠ dot.stop
        then throw ⟨.expected expectation, name, nofun⟩
        else parser) cursor = (.error problem, cursor) := by
  rw [run_bind, run_peek]
  cases formed : cursor.token.problem? with
  | some problem => exact ⟨problem, Token.problem_token formed, isFatal_of_problem? formed, rfl⟩
  | none =>
    dsimp only
    rw [if_pos apart]
    exact ⟨_, rfl, rfl, rfl⟩

/-- A full stop with a name right behind it. The last of the tokens has no name behind it in the first
run, and where there is one in the second run, this run goes on with it. -/
theorem abreast_dotted [Orderly anyToken another] (first second : Expectation)
    (reads : ∀ cursor : Cursor, cursor.Sound → cursor.token.kind = .functor →
      (another cursor).2.upcoming.length < cursor.upcoming.length)
    (rest : ∀ w' left left', S.Facing left left' →
      Abreast False S w' left left' parser another related) :
    Abreast False S w p q
      (do
        let dot ← expect .dot first
        let name ← peek
        if name.kind ≠ .functor ∨ name.position.offset ≠ dot.stop then
          throw ⟨.expected second, name, nofun⟩
        else parser)
      (do
        let dot ← expect .dot first
        let name ← peek
        if name.kind ≠ .functor ∨ name.position.offset ≠ dot.stop then
          throw ⟨.expected second, name, nofun⟩
        else another) related := by
  rw [expect_bind, expect_bind]
  refine abreast_peek facing fun dot dot' others others' here there moved formed => ?_
  rw [moved.kind]
  split
  next kind =>
    subst here there
    have paired := facing.paired.tail
    have ran : advance (S.first (dot :: others) w) = (.ok dot, S.first others w) :=
      run_advance formed
    have ran' : advance (S.second (dot' :: others') w) = (.ok dot', S.second others' w) :=
      run_advance (moved.problem.mpr formed)
    have remains := (Surroundings.Remains.refl paired).cons dot dot'
    unfold Abreast
    rw [run_then ran, run_then ran']
    by_cases some : others = []
    · subst some
      obtain rfl : others' = [] := List.length_eq_zero_iff.mp paired.length_eq
      have apart : ¬dot.Touches S.rest := fun touches => facing.apart ⟨dot, rfl, touches⟩
      obtain ⟨problem, place, mild, failed⟩ := run_nameless parser second
        (apart_edge (show (S.first [] w).finish.kind = _ from sound.finished) apart)
      rw [failed]
      by_cases touches : dot'.Touches S.other
      · have here := paired.sound sound w
        refine .beyond ⟨dot', rfl, touches⟩ ?_
        rw [run_named second touches]
        exact reads _ here (token_of_touches touches).1
      · obtain ⟨problem', -, mild', failed'⟩ := run_nameless another second
          (apart_edge (show (S.second [] w).finish.kind = _ from sound.ended) touches)
        rw [failed']
        exact .error remains (.inr place) (mild'.trans mild.symm)
    · refine Beside.within ?_ remains
      have facing' := facing.suffix (List.suffix_cons dot others) some paired
      refine abreast_peek facing' fun name name' more more' here there moved' formed => ?_
      have apart : name'.position.offset ≠ dot'.stop ↔ name.position.offset ≠ dot.stop := by
        rw [moved'.offset, moved.stop]
        omega
      simp only [moved'.kind, apart]
      split
      · exact abreast_throw facing' rfl
      · exact rest w others others' facing'
  next => exact abreast_fail facing _ _

end Sound

end Parser

end AgentSpeak.Source
