import AgentSpeak.Proofs.Source.Orderly

/-!
Parsers on some tokens and on the same tokens without a semicolon that stands behind a closing brace.

Up to the brace and behind the semicolon the two runs go through the same places. Between them the
first run is in front of the semicolon, and the second one is already behind it.
-/

namespace AgentSpeak.Source

/-- The tokens that may begin something else right behind a block. A full stop ends the plan there,
and the word `else` carries the block on. -/
def Kind.resumes : Kind → Bool
  | .dot | .semicolon | .elseWord => false
  | _ => true

/-- The same tokens, perhaps without a semicolon behind a closing brace. -/
inductive Spared : List Token → List Token → Prop where
  | same (tokens : List Token) : Spared tokens tokens
  | spare {brace semicolon next : Token} (rest : List Token) (closes : brace.kind = .closeBrace)
      (separates : semicolon.kind = .semicolon) (formed : next.problem? = none)
      (resumes : next.kind.resumes = true) :
      Spared (brace :: semicolon :: next :: rest) (brace :: next :: rest)
  | cons {tokens others : List Token} (token : Token) (rest : Spared tokens others) :
      Spared (token :: tokens) (token :: others)

namespace Spared

variable {tokens others : List Token}

theorem append (spared : Spared tokens others) (front : List Token) :
    Spared (front ++ tokens) (front ++ others) := by
  induction front with
  | nil => exact spared
  | cons token front ih => exact .cons token ih

theorem subset (spared : Spared tokens others) : others ⊆ tokens := by
  induction spared with
  | same tokens => exact List.Subset.refl tokens
  | spare rest => exact List.cons_subset_cons _ (List.subset_cons_self _ _)
  | cons token _ ih => exact List.cons_subset_cons token ih

theorem length_le (spared : Spared tokens others) : others.length ≤ tokens.length := by
  induction spared with
  | same => exact Nat.le_refl _
  | spare rest => simp
  | cons token _ ih => exact Nat.succ_le_succ ih

theorem isEmpty_eq (spared : Spared tokens others) : others.isEmpty = tokens.isEmpty := by
  cases spared <;> rfl

/-- Either nothing is spared, or the same tokens stand before a brace in both. -/
theorem cases_front (spared : Spared tokens others) :
    others = tokens ∨ ∃ front brace behind behind', tokens = front ++ brace :: behind ∧
      others = front ++ brace :: behind' ∧ brace.kind = .closeBrace ∧
        Spared (brace :: behind) (brace :: behind') := by
  induction spared with
  | same => exact .inl rfl
  | spare rest closes separates formed resumes =>
    exact .inr ⟨[], _, _, _, rfl, rfl, closes, .spare rest closes separates formed resumes⟩
  | cons token _ ih =>
    rcases ih with rfl | ⟨front, brace, behind, behind', rfl, rfl, closes, spared⟩
    · exact .inl rfl
    · exact .inr ⟨token :: front, brace, behind, behind', rfl, rfl, closes, spared⟩

end Spared

/-- Two places with the same tokens ahead, but perhaps for the semicolon. The second one has `size`
tokens ahead at most. -/
structure Cursor.Spares (size : Nat) (cursor other : Cursor) : Prop where
  upcoming : Spared cursor.upcoming other.upcoming
  finish : other.finish = cursor.finish
  wildcards : other.wildcards = cursor.wildcards
  sound : cursor.Sound
  fits : other.upcoming.length ≤ size

/-- Two places behind a closing brace, before and behind the semicolon. -/
structure Cursor.Straddles (size : Nat) (cursor other : Cursor) : Prop where
  semicolon : cursor.token.kind = .semicolon
  behind : other = Parser.behind cursor
  formed : other.token.problem? = none
  resumes : other.token.kind.resumes = true
  sound : cursor.Sound
  fits : other.upcoming.length ≤ size

/-- Two places behind a closing brace. -/
def Cursor.Beyond (size : Nat) (cursor other : Cursor) : Prop :=
  cursor.Spares size other ∨ cursor.Straddles size other

/-- Such places with less ahead. -/
def Cursor.Shortens (size : Nat) (cursor other : Cursor) : Prop :=
  ∃ fewer < size, cursor.Spares fewer other

/-- Two places behind a token of a kind, with less than `size` tokens ahead of the second one. -/
def Cursor.Passed (kind : Kind) (size : Nat) (cursor other : Cursor) : Prop :=
  ∃ fewer < size, cursor.Beyond fewer other ∧ (kind ≠ .closeBrace → cursor.Spares fewer other)

namespace Cursor.Passed

variable {kind : Kind} {size more : Nat} {cursor other : Cursor}

theorem shortens (passed : cursor.Passed kind size other) (inner : kind ≠ .closeBrace) :
    cursor.Shortens size other := by
  obtain ⟨fewer, less, -, behind⟩ := passed
  exact ⟨fewer, less, behind inner⟩

theorem mono (passed : cursor.Passed kind size other) (le : size ≤ more) :
    cursor.Passed kind more other := by
  obtain ⟨fewer, less, behind⟩ := passed
  exact ⟨fewer, Nat.lt_of_lt_of_le less le, behind⟩

end Cursor.Passed

namespace Cursor.Spares

variable {size more : Nat} {cursor other : Cursor}

theorem mono (spares : cursor.Spares size other) (le : size ≤ more) : cursor.Spares more other :=
  { spares with fits := Nat.le_trans spares.fits le }

theorem tight (spares : cursor.Spares size other) : cursor.Spares other.upcoming.length other :=
  { spares with fits := Nat.le_refl _ }

theorem token (spares : cursor.Spares size other) : other.token = cursor.token := by
  have finish := spares.finish
  obtain ⟨tokens, last, w⟩ := cursor
  obtain ⟨others, last', w'⟩ := other
  cases spares.upcoming with
  | same => exact congrArg (tokens.head?.getD ·) finish
  | spare => rfl
  | cons => rfl

theorem sound_other (spares : cursor.Spares size other) : other.Sound :=
  ⟨spares.finish ▸ spares.sound.ended,
    fun token member => spares.sound.spelled token (spares.upcoming.subset member)⟩

/-- Behind a token other than the end of the input there is less ahead. -/
theorem exists_fewer (spares : cursor.Spares size other)
    (inside : cursor.token.kind ≠ .endOfInput) :
    ∃ fewer < size, (Parser.behind other).upcoming.length ≤ fewer := by
  have some : other.upcoming ≠ [] := by
    intro none
    rw [← spares.token, Cursor.token, none] at inside
    exact inside spares.sound_other.ended
  have length := List.length_pos_of_ne_nil some
  have fits := spares.fits
  exact ⟨other.upcoming.length - 1, by omega, Nat.le_of_eq List.length_tail⟩

/-- Behind a token there are such places again, unless it was the brace. -/
theorem passed (spares : cursor.Spares size other) (inside : cursor.token.kind ≠ .endOfInput) :
    (Parser.behind cursor).Passed cursor.token.kind size (Parser.behind other) := by
  obtain ⟨fewer, less, fits⟩ := spares.exists_fewer inside
  have sound := spares.sound.behind
  have finish := spares.finish
  have wildcards := spares.wildcards
  have still : Spared (Parser.behind cursor).upcoming (Parser.behind other).upcoming →
      (Parser.behind cursor).Spares fewer (Parser.behind other) :=
    fun upcoming => ⟨upcoming, finish, wildcards, sound, fits⟩
  refine ⟨fewer, less, ?_⟩
  obtain ⟨tokens, last, w⟩ := cursor
  obtain ⟨others, last', w'⟩ := other
  cases spares.upcoming with
  | same => exact ⟨.inl (still (.same _)), fun _ => still (.same _)⟩
  | spare rest closes separates formed resumes =>
    obtain rfl : last' = last := finish
    obtain rfl : w' = w := wildcards
    exact ⟨.inr ⟨separates, rfl, formed, resumes, sound, fits⟩, fun inner => absurd closes inner⟩
  | cons token rest => exact ⟨.inl (still rest), fun _ => still rest⟩

theorem following (spares : cursor.Spares size other) (inside : cursor.token.kind ≠ .endOfInput)
    (inner : cursor.token.kind ≠ .closeBrace) : other.following = cursor.following := by
  obtain ⟨fewer, -, behind⟩ := (spares.passed inside).shortens inner
  exact behind.token

end Cursor.Spares

namespace Cursor.Straddles

variable {size : Nat} {cursor other : Cursor}

/-- Behind the semicolon the two places are the same. -/
theorem rejoins (straddles : cursor.Straddles size other) : other.Spares size other := by
  obtain ⟨-, rfl, -, -, sound, fits⟩ := straddles
  exact ⟨.same _, rfl, rfl, sound.behind, fits⟩

theorem formed_semicolon (straddles : cursor.Straddles size other) :
    cursor.token.problem? = none := by
  have separates := straddles.semicolon
  unfold Token.problem?
  split <;> simp_all

theorem other_ne (straddles : cursor.Straddles size other) {kind : Kind}
    (halts : kind.resumes = false) : other.token.kind ≠ kind := by
  rintro rfl
  cases halts.symm.trans straddles.resumes

end Cursor.Straddles

theorem Cursor.Beyond.passed {size more : Nat} {cursor other : Cursor}
    (beyond : cursor.Beyond size other) (less : size < more) : cursor.Passed .closeBrace more other :=
  ⟨size, less, beyond, fun inner => absurd rfl inner⟩

namespace Parser

variable {α β : Type}

/-- A value that a parser gives at one place is given by another parser at another place, and the
places behind are in relation. -/
def Follows (cursor other : Cursor) (parser another : Parser α)
    (ends : α → Cursor → Cursor → Prop) : Prop :=
  ∀ value after, parser cursor = (.ok value, after) →
    ∃ last, another other = (.ok value, last) ∧ ends value after last

/-- A parser that gives its value without the semicolon as well, and does not go beyond the brace. -/
class Sparing (parser : Parser α) : Prop where
  follows {size : Nat} {cursor other : Cursor} (spares : cursor.Spares size other) :
    Follows cursor other parser parser fun _ => Cursor.Spares size

section Steps

variable {size : Nat} {cursor other : Cursor} {parser another : Parser α}
  {ends : α → Cursor → Cursor → Prop}

theorem Follows.mono {weaker : α → Cursor → Cursor → Prop}
    (follows : Follows cursor other parser another ends)
    (more : ∀ value after last, ends value after last → weaker value after last) :
    Follows cursor other parser another weaker := by
  intro value after ran
  obtain ⟨last, ran', behind⟩ := follows value after ran
  exact ⟨last, ran', more value after last behind⟩

theorem follows_pure {value : α} (behind : ends value cursor other) :
    Follows cursor other (pure value) (pure value) ends := by
  intro value' after ran
  obtain ⟨same, rfl⟩ := Prod.mk.inj ran
  obtain rfl := Except.ok.inj same
  exact ⟨other, rfl, behind⟩

theorem follows_throw (problem : Problem) :
    Follows cursor other (throw problem) another ends := by
  intro value after ran
  cases ran

theorem follows_fail (expectation : Expectation) : Follows cursor other (fail expectation) another ends :=
  fun _ _ ran => absurd ran not_ok_fail

theorem Follows.bind {next next' : α → Parser β} {ends' : β → Cursor → Cursor → Prop}
    (first : Follows cursor other parser another ends)
    (rest : ∀ value after last, ends value after last →
      Follows after last (next value) (next' value) ends') :
    Follows cursor other (parser >>= next) (another >>= next') ends' := by
  intro value after ran
  obtain ⟨found, middle, ranFirst, ranNext⟩ := ok_bind ran
  obtain ⟨middle', ranFirst', behind⟩ := first found middle ranFirst
  obtain ⟨last, ranNext', final⟩ := rest found middle middle' behind value after ranNext
  exact ⟨last, (run_then ranFirst' next').trans ranNext', final⟩

theorem Follows.map {f : α → β} {ends' : β → Cursor → Cursor → Prop}
    (follows : Follows cursor other parser another ends)
    (behind : ∀ value after last, ends value after last → ends' (f value) after last) :
    Follows cursor other (parser >>= fun value => pure (f value))
      (another >>= fun value => pure (f value)) ends' :=
  follows.bind fun value after last final => follows_pure (behind value after last final)

variable (spares : cursor.Spares size other)

include spares

/-- Both runs look at the same token. -/
theorem follows_peek {next next' : Token → Parser α}
    (rest : cursor.token.problem? = none →
      Follows cursor other (next cursor.token) (next' cursor.token) ends) :
    Follows cursor other (peek >>= next) (peek >>= next') ends := by
  intro value after ran
  obtain ⟨token, middle, peeked, ranNext⟩ := ok_bind ran
  obtain ⟨formed, rfl, rfl⟩ := ok_peek peeked
  obtain ⟨last, ranNext', behind⟩ := rest formed value after ranNext
  have looked := run_peek_formed (spares.token.symm ▸ formed)
  rw [spares.token] at looked
  exact ⟨last, (run_then looked next').trans ranNext', behind⟩

theorem follows_peekSecond {next next' : Token → Parser α}
    (inside : cursor.token.kind ≠ .endOfInput) (inner : cursor.token.kind ≠ .closeBrace)
    (rest : Follows cursor other (next cursor.following) (next' cursor.following) ends) :
    Follows cursor other (peekSecond >>= next) (peekSecond >>= next') ends := by
  intro value after ran
  obtain ⟨token, middle, peeked, ranNext⟩ := ok_bind ran
  obtain ⟨formed, rfl, rfl⟩ := ok_peekSecond peeked
  obtain ⟨last, ranNext', behind⟩ := rest value after ranNext
  have same := spares.following inside inner
  have looked := run_peekSecond other
  rw [same, formed] at looked
  exact ⟨last, (run_then looked next').trans ranNext', behind⟩

/-- Both runs have fuel for all tokens that are ahead in the second one. -/
theorem follows_budget {next next' : Nat → Parser α}
    (rest : ∀ fuel fuel', other.upcoming.length < fuel → other.upcoming.length < fuel' →
      Follows cursor other (next fuel) (next' fuel') ends) :
    Follows cursor other (budget >>= next) (budget >>= next') ends := by
  have follows := rest (cursor.upcoming.length + 1) (other.upcoming.length + 1)
    (Nat.lt_succ_of_le spares.upcoming.length_le) (Nat.lt_succ_self _)
  unfold Follows at follows ⊢
  simp only [run_bind, run_budget]
  exact follows

/-- Both runs go on behind the same token, and the second one has less ahead. -/
theorem follows_advance (inside : cursor.token.kind ≠ .endOfInput) :
    Follows cursor other advance advance fun token after last =>
      token = cursor.token ∧ after.Passed cursor.token.kind size last := by
  intro token after ran
  obtain ⟨formed, rfl, rfl⟩ := ok_advance ran
  have advanced := run_advance (spares.token.symm ▸ formed)
  rw [spares.token] at advanced
  exact ⟨_, advanced, rfl, spares.passed inside⟩

theorem follows_check (kind : Kind) :
    Follows cursor other (check kind) (check kind) fun found after last =>
      found = decide (cursor.token.kind = kind) ∧ after.Spares size last := by
  rw [← bind_pure (check kind), check_bind]
  exact follows_peek spares fun _ => follows_pure ⟨rfl, spares⟩

theorem follows_accept {kind : Kind} (inside : kind ≠ .endOfInput) :
    Follows cursor other (accept kind) (accept kind) fun found after last =>
      if found then after.Passed kind size last else after.Spares size last := by
  rw [← bind_pure (accept kind), accept_bind]
  refine follows_peek spares fun _ => ?_
  split
  next same =>
    subst same
    exact (follows_advance spares inside).map fun _ _ _ moved => moved.2
  next => exact follows_pure spares

omit spares in
/-- Behind a brace nothing is accepted that would carry the block on. -/
theorem follows_accept_beyond (beyond : cursor.Beyond size other) {kind : Kind}
    (halts : kind.resumes = false) (apart : kind ≠ .semicolon) :
    Follows cursor other (accept kind) (accept kind) fun found after last =>
      if found then after.Passed kind size last else after.Beyond size last := by
  rcases beyond with spares | straddles
  · have inside : kind ≠ .endOfInput := by
      rintro rfl
      cases halts
    refine (follows_accept spares inside).mono fun found after last behind => ?_
    cases found with
    | false => exact .inl behind
    | true => exact behind
  · intro found after ran
    have none := straddles.semicolon.trans_ne apart.symm
    rw [run_accept_false straddles.formed_semicolon none] at ran
    obtain ⟨same, rfl⟩ := Prod.mk.inj ran
    obtain rfl := Except.ok.inj same
    exact ⟨other, run_accept_false straddles.formed (straddles.other_ne halts), .inr straddles⟩

theorem follows_expect {kind : Kind} (inside : kind ≠ .endOfInput) (expectation : Expectation) :
    Follows cursor other (expect kind expectation) (expect kind expectation)
      fun token after last => token = cursor.token ∧ after.Passed kind size last := by
  rw [← bind_pure (expect kind expectation), expect_bind]
  refine follows_peek spares fun _ => ?_
  split
  next same =>
    subst same
    exact (follows_advance spares inside).map fun _ _ _ moved => moved
  next => exact follows_fail _

end Steps

/-- The same tokens in both runs, with a brace behind them. -/
def Surroundings.beforeBrace (brace : Token) (behind behind' : List Token) (finish : Token) :
    Surroundings where
  rest := brace :: behind
  other := brace :: behind'
  finish := finish
  last := finish
  distance := 0
  shift := 0
  allowed := Term.Spelled

/-- What is read up to a brace at most is read in the same way without the semicolon, as both runs
have the same tokens up to there. -/
theorem Rereads.sparing {parser : Parser α} {related : Nat → α → α → Prop}
    (rereads : Rereads parser related)
    (same : ∀ value copy, related 0 value copy → copy = value) : Sparing parser := by
  refine ⟨fun {size cursor other} spares value after ran => ?_⟩
  have orderly : Orderly anyToken parser := rereads.orderly
  have sound := spares.sound
  have sound' := spares.sound_other
  have finish := spares.finish
  have wildcards := spares.wildcards
  have fits := spares.fits
  have spared := spares.upcoming
  obtain ⟨tokens, last, w⟩ := cursor
  obtain ⟨others, last', w'⟩ := other
  obtain rfl : last' = last := finish
  obtain rfl : w' = w := wildcards
  obtain ⟨used, passes⟩ := Orderly.passes sound ran
  rcases spared.cases_front with unchanged | ⟨front, brace, behind, behind', here, there, closes,
    apart⟩
  · obtain rfl : others = tokens := unchanged
    refine ⟨after, ran, .same _, rfl, rfl, passes.sound sound, ?_⟩
    have split : others = used ++ after.upcoming := passes.split
    have fits : others.length ≤ size := fits
    rw [split, List.length_append] at fits
    omega
  · obtain rfl : tokens = front ++ brace :: behind := here
    obtain rfl : others = front ++ brace :: behind' := there
    let S := Surroundings.beforeBrace brace behind behind' last'
    have alike : S.Alike := rfl
    have paired : S.Paired front front := Surroundings.paired_self rfl fun token member =>
      sound.spelled token (List.mem_append_left _ member)
    obtain ⟨outcome, left, count, ranFirst, ⟨taken, split, -⟩, -, -, again⟩ :=
      rereads S (fit_of_closes (closes ▸ rfl : S.edge.kind.closes = true) alike) alike
        (fun _ own => own) w' front front paired
    obtain ⟨outcome', left', ranSecond, paired', outcomes⟩ := again (.inr (.inr alike))
    obtain ⟨rfl, rfl⟩ := Prod.mk.inj (ran.symm.trans ranFirst)
    cases outcomes with
    | @ok _ copy values =>
      obtain rfl := same value copy values
      obtain ⟨taken', passes'⟩ := Orderly.passes sound' ranSecond
      -- What the second run leaves ends the same tokens and is as long as what the first run leaves.
      have split' : front = taken' ++ left' := by
        have whole : front ++ brace :: behind' = taken' ++ (left' ++ brace :: behind') :=
          passes'.split
        rw [← List.append_assoc] at whole
        exact List.append_cancel_right whole
      obtain ⟨-, rfl⟩ := List.append_inj' (split.symm.trans split') paired'.length_eq.symm
      refine ⟨_, ranSecond, apart.append left, rfl, rfl, passes.sound sound, ?_⟩
      have fits : (front ++ brace :: behind').length ≤ size := fits
      rw [split, List.append_assoc, List.length_append] at fits
      exact Nat.le_trans (Nat.le_add_left _ _) fits

instance (value : α) : Sparing (pure value : Parser α) :=
  ⟨fun spares => follows_pure spares⟩

instance {parser : Parser α} {next : α → Parser β} [Sparing parser]
    [∀ value, Sparing (next value)] : Sparing (parser >>= next) :=
  ⟨fun spares => (Sparing.follows spares).bind fun _ _ _ behind => Sparing.follows behind⟩

instance {condition : Prop} [Decidable condition] {parser another : Parser α} [Sparing parser]
    [Sparing another] : Sparing (if condition then parser else another) := by
  split <;> infer_instance

instance : Sparing peek := by
  refine ⟨fun spares => ?_⟩
  rw [← bind_pure peek]
  exact follows_peek spares fun _ => follows_pure spares

instance (expectation : Expectation) : Sparing (fail expectation : Parser α) :=
  ⟨fun _ => follows_fail expectation⟩

/-- A parser that gives its value without the semicolon as well, with less ahead behind it. -/
class Shortening (parser : Parser α) : Prop where
  shortens {size : Nat} {cursor other : Cursor} (spares : cursor.Spares size other) :
    Follows cursor other parser parser fun _ => Cursor.Shortens size

instance (expectation : Expectation) : Shortening (expect .dot expectation) :=
  ⟨fun spares => (follows_expect spares (by decide) expectation).mono
    fun _ _ _ moved => moved.2.shortens (by decide)⟩

instance {parser : Parser α} {next : α → Parser β} [Sparing parser]
    [∀ value, Shortening (next value)] : Shortening (parser >>= next) :=
  ⟨fun spares => (Sparing.follows spares).bind fun _ _ _ behind => Shortening.shortens behind⟩

instance {parser : Parser α} {f : α → β} [Shortening parser] :
    Shortening (parser >>= fun value => pure (f value)) :=
  ⟨fun spares => (Shortening.shortens spares).map fun _ _ _ shortens => shortens⟩

instance {condition : Prop} [Decidable condition] {parser another : Parser α} [Shortening parser]
    [Shortening another] : Shortening (if condition then parser else another) := by
  split <;> infer_instance

instance (problem : Problem) : Shortening (throw problem : Parser α) :=
  ⟨fun _ => follows_throw problem⟩

theorem sparing_accept {kind : Kind} (inside : kind ≠ .endOfInput) (inner : kind ≠ .closeBrace) :
    Sparing (accept kind) := by
  refine ⟨fun spares => (follows_accept spares inside).mono fun found after last behind => ?_⟩
  cases found with
  | false => exact behind
  | true =>
    obtain ⟨fewer, less, behind⟩ := Cursor.Passed.shortens behind inner
    exact behind.mono (Nat.le_of_lt less)

theorem sparing_expect {kind : Kind} (inside : kind ≠ .endOfInput) (inner : kind ≠ .closeBrace)
    (expectation : Expectation) : Sparing (expect kind expectation) := by
  refine ⟨fun spares => (follows_expect spares inside expectation).mono fun _ after last moved => ?_⟩
  obtain ⟨fewer, less, behind⟩ := moved.2.shortens inner
  exact behind.mono (Nat.le_of_lt less)

end Parser

end AgentSpeak.Source
