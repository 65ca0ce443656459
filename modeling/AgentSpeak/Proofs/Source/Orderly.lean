import AgentSpeak.Proofs.Source.Agreement
import AgentSpeak.Proofs.Term.Reading

namespace AgentSpeak.Source

open Term (Spelled)

/-- The tokens up to and with the first full stop. -/
def reach : List Token → List Token
  | [] => []
  | token :: rest => if token.kind = .dot then [token] else token :: reach rest

theorem reach_eq_nil {tokens : List Token} : reach tokens = [] ↔ tokens = [] := by
  cases tokens with
  | nil => simp [reach]
  | cons token rest =>
    rw [reach]
    split <;> simp

theorem reach_append {front : List Token} (inner : ∀ token ∈ front, token.kind ≠ .dot)
    (back : List Token) : reach (front ++ back) = front ++ reach back := by
  induction front with
  | nil => rfl
  | cons token front ih =>
    rw [List.cons_append, reach, if_neg (inner token List.mem_cons_self),
      ih fun other member => inner other (List.mem_cons_of_mem _ member), List.cons_append]

/-- Tokens are some without a full stop, and then none or a full stop and others. -/
theorem exists_before_dot (tokens : List Token) :
    ∃ front back, tokens = front ++ back ∧ (∀ token ∈ front, token.kind ≠ .dot) ∧
      ∀ token ∈ back.head?, token.kind = .dot := by
  induction tokens with
  | nil => exact ⟨[], [], rfl, by simp, by simp⟩
  | cons token tokens ih =>
    by_cases dot : token.kind = .dot
    · exact ⟨[], token :: tokens, rfl, by simp, by simpa using dot⟩
    · obtain ⟨front, back, rfl, inner, ends⟩ := ih
      exact ⟨token :: front, back, rfl, by simpa [dot] using inner, ends⟩

theorem Surroundings.paired_self {S : Surroundings} {tokens : List Token} (still : S.distance = 0)
    (own : ∀ token ∈ tokens, S.allowed token) : S.Paired tokens tokens := by
  induction tokens with
  | nil => exact .nil
  | cons token tokens ih =>
    refine .cons ⟨rfl, rfl, rfl, still ▸ rfl⟩ (own token List.mem_cons_self) (ih ?_)
    exact fun other member => own other (List.mem_cons_of_mem _ member)

/-- A place to read from: names have the text of a name, and the end of the input is behind. -/
structure Cursor.Sound (cursor : Cursor) : Prop where
  ended : cursor.finish.kind = .endOfInput
  spelled : ∀ token ∈ cursor.upcoming, Spelled token

theorem Cursor.Sound.behind {cursor : Cursor} (sound : cursor.Sound) :
    (Parser.behind cursor).Sound :=
  ⟨sound.ended, fun token member => sound.spelled token (List.mem_of_mem_tail member)⟩

/-- From one place to another some tokens are read, none of which is malformed. -/
structure Passes (used : List Token) (before after : Cursor) : Prop where
  split : before.upcoming = used ++ after.upcoming
  finish : after.finish = before.finish
  formed : ∀ token ∈ used, token.problem? = none

section Passes

variable {used more : List Token} {before middle after : Cursor}

theorem Passes.refl (cursor : Cursor) : Passes [] cursor cursor :=
  ⟨rfl, rfl, by simp⟩

theorem Passes.trans (first : Passes used before middle) (second : Passes more middle after) :
    Passes (used ++ more) before after := by
  refine ⟨?_, second.finish.trans first.finish, ?_⟩
  · rw [first.split, second.split, List.append_assoc]
  · exact fun token member =>
      (List.mem_append.mp member).elim (first.formed token) (second.formed token)

theorem Passes.sound (passes : Passes used before after) (sound : before.Sound) : after.Sound := by
  refine ⟨passes.finish ▸ sound.ended, fun token member => sound.spelled token ?_⟩
  rw [passes.split]
  exact List.mem_append_right _ member

/-- A token that is near a run: one that it has read, one up to the next full stop, or the end of
the input. -/
def Near (used : List Token) (after : Cursor) (token : Token) : Prop :=
  token ∈ used ∨ token ∈ reach after.upcoming ∨ token = after.finish

theorem Near.append_left {token : Token} (near : Near more after token) (used : List Token) :
    Near (used ++ more) after token :=
  near.imp_left (List.mem_append_right used)

theorem Passes.near_token (passes : Passes used before after) :
    Near used after before.token := by
  cases used with
  | nil =>
    rw [Cursor.token, passes.split, ← passes.finish, List.nil_append]
    cases upcoming : after.upcoming with
    | nil => exact .inr (.inr rfl)
    | cons token rest =>
      refine .inr (.inl ?_)
      rw [upcoming, reach]
      split <;> simp
  | cons token used =>
    rw [Cursor.token, passes.split]
    exact .inl (by simp)

end Passes

namespace Parser

variable {α β : Type} {allowed : Token → Prop} {cursor : Cursor} {parser : Parser α}

/-- From a place, a parser reads well-formed tokens, and if it has a problem, this is near or at an
allowed token. -/
def OrderlyAt (allowed : Token → Prop) (cursor : Cursor) (parser : Parser α) : Prop :=
  ∃ used, Passes used cursor (parser cursor).2 ∧ ∀ problem, (parser cursor).1 = .error problem →
    allowed problem.token ∨ Near used (parser cursor).2 problem.token

/-- A parser that is orderly at every place. -/
class Orderly (allowed : Token → Prop) (parser : Parser α) : Prop where
  orderlyAt : ∀ cursor : Cursor, cursor.Sound → OrderlyAt allowed cursor parser

/-- Every token is allowed, so that only the tokens read are told. -/
def anyToken : Token → Prop := fun _ => True

theorem Orderly.passes [orderly : Orderly anyToken parser] {outcome : Except Problem α}
    {after : Cursor} (sound : cursor.Sound) (ran : parser cursor = (outcome, after)) :
    ∃ used, Passes used cursor after := by
  obtain ⟨used, passes, -⟩ := orderly.orderlyAt cursor sound
  rw [ran] at passes
  exact ⟨used, passes⟩

theorem Orderly.length_le (parser : Parser α) [orderly : Orderly anyToken parser]
    (sound : cursor.Sound) : (parser cursor).2.upcoming.length ≤ cursor.upcoming.length := by
  obtain ⟨used, passes, -⟩ := orderly.orderlyAt cursor sound
  rw [passes.split, List.length_append]
  exact Nat.le_add_left _ _

theorem orderlyAt_of_near {outcome : Except Problem α} {used : List Token} {after : Cursor}
    (ran : parser cursor = (outcome, after)) (passes : Passes used cursor after)
    (near : ∀ problem, outcome = .error problem →
      allowed problem.token ∨ Near used after problem.token) : OrderlyAt allowed cursor parser := by
  refine ⟨used, ?_, ?_⟩ <;> rw [ran]
  · exact passes
  · exact near

theorem orderlyAt_of_ok {value : α} {used : List Token} {after : Cursor}
    (ran : parser cursor = (.ok value, after)) (passes : Passes used cursor after) :
    OrderlyAt allowed cursor parser := by
  refine orderlyAt_of_near ran passes ?_
  rintro _ ⟨⟩

theorem orderlyAt_pure (value : α) : OrderlyAt allowed cursor (pure value) :=
  orderlyAt_of_ok (run_pure value cursor) (.refl cursor)

theorem orderlyAt_throw {problem : Problem} (own : allowed problem.token) :
    OrderlyAt allowed cursor (throw problem : Parser α) := by
  refine orderlyAt_of_near (run_throw problem cursor) (.refl cursor) ?_
  rintro _ ⟨⟩
  exact .inl own

theorem OrderlyAt.bind {next : α → Parser β} (sound : cursor.Sound)
    (first : OrderlyAt allowed cursor parser)
    (rest : ∀ value after, after.Sound → OrderlyAt allowed after (next value)) :
    OrderlyAt allowed cursor (parser >>= next) := by
  obtain ⟨used, passes, near⟩ := first
  have whole := run_bind parser next cursor
  rcases ran : parser cursor with ⟨problem | value, middle⟩
  · rw [ran] at passes near whole
    refine orderlyAt_of_near whole passes ?_
    rintro _ ⟨⟩
    exact near problem rfl
  · rw [ran] at passes whole
    obtain ⟨more, passes', near'⟩ := rest value middle (passes.sound sound)
    refine orderlyAt_of_near whole (passes.trans passes') fun problem failed => ?_
    exact (near' problem failed).imp_right fun near => near.append_left used

/-- The token that is looked at is near to whatever comes next. -/
theorem orderlyAt_peek {next : Token → Parser α}
    (rest : cursor.token.problem? = none →
      OrderlyAt (fun token => allowed token ∨ token = cursor.token) cursor (next cursor.token)) :
    OrderlyAt allowed cursor (peek >>= next) := by
  have whole := run_bind peek next cursor
  rw [run_peek] at whole
  cases formed : cursor.token.problem? with
  | some problem =>
    rw [formed] at whole
    refine orderlyAt_of_near whole (.refl cursor) ?_
    rintro _ ⟨⟩
    exact .inr (Token.problem_token formed ▸ (Passes.refl cursor).near_token)
  | none =>
    rw [formed] at whole
    obtain ⟨used, passes, near⟩ := rest formed
    refine orderlyAt_of_near whole passes fun problem failed => ?_
    rcases near problem failed with (own | same) | near
    · exact .inl own
    · exact .inr (same ▸ passes.near_token)
    · exact .inr near

/-- Behind a token that is no full stop, the second token is near. -/
theorem orderlyAt_peekSecond (inner : cursor.token.kind ≠ .dot) :
    OrderlyAt allowed cursor peekSecond := by
  have near : Near [] cursor cursor.following := by
    obtain ⟨_ | ⟨first, _ | ⟨second, rest⟩⟩, finish, w⟩ := cursor
    · exact .inr (.inr rfl)
    · exact .inr (.inr rfl)
    · have other : first.kind ≠ .dot := inner
      refine .inr (.inl ?_)
      show second ∈ reach (first :: second :: rest)
      rw [reach, if_neg other, reach]
      split <;> simp
  have ran := run_peekSecond cursor
  cases formed : cursor.following.problem? with
  | some problem =>
    rw [formed] at ran
    refine orderlyAt_of_near ran (.refl cursor) ?_
    rintro _ ⟨⟩
    exact .inr (Token.problem_token formed ▸ near)
  | none =>
    rw [formed] at ran
    exact orderlyAt_of_ok ran (.refl cursor)

instance (value : α) : Orderly allowed (pure value : Parser α) :=
  ⟨fun _ _ => orderlyAt_pure value⟩

instance (problem : Problem) : Orderly anyToken (throw problem : Parser α) :=
  ⟨fun _ _ => orderlyAt_throw trivial⟩

instance {next : α → Parser β} [Orderly allowed parser] [∀ value, Orderly allowed (next value)] :
    Orderly allowed (parser >>= next) :=
  ⟨fun cursor sound => OrderlyAt.bind sound (Orderly.orderlyAt cursor sound)
    fun _ after sound' => Orderly.orderlyAt after sound'⟩

instance {condition : Prop} [Decidable condition] {another : Parser α} [Orderly allowed parser]
    [Orderly allowed another] : Orderly allowed (if condition then parser else another) := by
  split <;> infer_instance

instance : Orderly allowed peek := by
  refine ⟨fun cursor _ => ?_⟩
  rw [← bind_pure peek]
  exact orderlyAt_peek fun _ => orderlyAt_pure _

instance : Orderly anyToken peekSecond := by
  refine ⟨fun cursor _ => ?_⟩
  have ran := run_peekSecond cursor
  split at ran
  all_goals exact orderlyAt_of_near ran (.refl cursor) fun _ _ => .inl trivial

instance (expectation : Expectation) : Orderly allowed (fail expectation : Parser α) := by
  refine ⟨fun cursor _ => ?_⟩
  rw [fail]
  exact orderlyAt_peek fun _ => orderlyAt_throw (.inr rfl)

/-- At most one token is read, as there may be none before the end of the input. -/
theorem passes_behind (formed : cursor.token.problem? = none) :
    Passes (cursor.upcoming.take 1) cursor (behind cursor) := by
  refine ⟨?_, rfl, fun token member => ?_⟩
  · show cursor.upcoming = cursor.upcoming.take 1 ++ cursor.upcoming.tail
    rw [← List.drop_one, List.take_append_drop]
  · cases upcoming : cursor.upcoming with
    | nil => simp [upcoming] at member
    | cons first rest =>
      obtain rfl : token = first := by simpa [upcoming] using member
      simpa [Cursor.token, upcoming] using formed

instance : Orderly allowed advance := by
  refine ⟨fun cursor _ => ?_⟩
  cases formed : cursor.token.problem? with
  | some problem =>
    have ran : advance cursor = (.error problem, cursor) := by
      rw [advance, run_bind, run_peek, formed]
    refine orderlyAt_of_near ran (.refl cursor) ?_
    rintro _ ⟨⟩
    exact .inr (Token.problem_token formed ▸ (Passes.refl cursor).near_token)
  | none =>
    exact orderlyAt_of_ok (run_advance formed) (passes_behind formed)

instance (kind : Kind) : Orderly allowed (check kind) := by
  unfold check
  infer_instance

instance (kind : Kind) : Orderly allowed (accept kind) := by
  unfold accept
  infer_instance

instance (kind : Kind) (expectation : Expectation) : Orderly allowed (expect kind expectation) := by
  unfold expect
  infer_instance

instance : Orderly allowed budget :=
  ⟨fun cursor _ => orderlyAt_of_ok (run_budget cursor) (.refl cursor)⟩

instance [Orderly allowed parser] (fuel : Nat) : Orderly allowed (commaSeparated parser fuel) := by
  induction fuel with
  | zero =>
    unfold commaSeparated
    infer_instance
  | succ fuel ih =>
    unfold commaSeparated
    infer_instance

/-- A parser that is orderly and ends with a full stop if it has no problem. -/
class Closing (parser : Parser α) : Prop where
  closes : ∀ (cursor : Cursor) (value : α) (after : Cursor), cursor.Sound →
    parser cursor = (.ok value, after) →
      ∃ used dot, Passes (used ++ [dot]) cursor after ∧ dot.kind = .dot

instance (expectation : Expectation) : Closing (expect .dot expectation) := by
  refine ⟨fun cursor value after sound ran => ?_⟩
  obtain ⟨formed, kind, rfl, rfl⟩ := ok_expect ran
  have passes := passes_behind formed
  cases upcoming : cursor.upcoming with
  | nil =>
    rw [Cursor.token, upcoming] at kind
    exact absurd (kind.symm.trans sound.ended) (by decide)
  | cons dot rest =>
    rw [upcoming] at passes
    rw [Cursor.token, upcoming] at kind
    exact ⟨[], dot, passes, kind⟩

instance (problem : Problem) : Closing (throw problem : Parser α) := by
  refine ⟨fun _ _ _ _ ran => ?_⟩
  cases ran

instance {next : α → Parser β} [Orderly anyToken parser] [∀ value, Closing (next value)] :
    Closing (parser >>= next) := by
  refine ⟨fun cursor value after sound ran => ?_⟩
  obtain ⟨first, middle, ran, ranNext⟩ := ok_bind ran
  obtain ⟨used, passes⟩ := Orderly.passes sound ran
  obtain ⟨more, dot, passes', kind⟩ := Closing.closes middle value after (passes.sound sound) ranNext
  exact ⟨used ++ more, dot, List.append_assoc .. ▸ passes.trans passes', kind⟩

instance {f : α → β} [Closing parser] : Closing (parser >>= fun value => pure (f value)) := by
  refine ⟨fun cursor value after sound ran => ?_⟩
  obtain ⟨first, middle, ranFirst, ranNext⟩ := ok_bind ran
  obtain ⟨-, rfl⟩ := Prod.mk.inj ranNext
  exact Closing.closes cursor first middle sound ranFirst

instance {condition : Prop} [Decidable condition] {another : Parser α} [Closing parser]
    [Closing another] : Closing (if condition then parser else another) := by
  split <;> infer_instance

/-- What a parser reads up to a full stop, the end of a block or the end of the input is read by it in
other surroundings as well, with related values. The surroundings have seen some more wildcards. -/
def Rereads (parser : Parser α) (related : Nat → α → α → Prop) : Prop :=
  ∀ S : Surroundings, S.Fit → S.Alike → (∀ token, S.allowed token → Spelled token) →
    ∀ w p q, S.Paired p q → Agree S True w p q parser parser fun _ => related S.shift

/-- Tokens before a full stop or the end of the input, in the place of themselves. -/
def beside (front back : List Token) (finish : Token) : Surroundings where
  rest := back
  other := back
  finish := finish
  last := finish
  distance := 0
  shift := 0
  allowed := fun token => Spelled token ∧ token ∈ front

theorem fit_of_closes {S : Surroundings} (closes : S.edge.kind.closes = true) (alike : S.Alike) :
    S.Fit := by
  have other : S.otherEdge.kind.closes = true := by
    rwa [show S.otherEdge.kind = S.edge.kind from alike]
  refine ⟨closes, ?_, ?_⟩
  · generalize S.otherEdge.kind = kind at other
    cases kind <;> first | rfl | cases other
  · unfold Token.problem?
    split <;> simp_all [Kind.closes]

theorem Rereads.orderly {related : Nat → α → α → Prop} (rereads : Rereads parser related) :
    Orderly allowed parser := by
  refine ⟨fun ⟨tokens, finish, w⟩ sound => ?_⟩
  obtain ⟨front, back, rfl, inner, ends⟩ := exists_before_dot tokens
  let S := beside front back finish
  have edge : S.edge.kind.closes = true := by
    show (back.head?.getD finish).kind.closes = true
    cases back with
    | nil => exact sound.ended ▸ rfl
    | cons dot rest => exact ends dot rfl ▸ rfl
  have paired : S.Paired front front := by
    refine Surroundings.paired_self rfl fun token member => ⟨sound.spelled token ?_, member⟩
    exact List.mem_append_left back member
  obtain ⟨outcome, left, w', ran, ⟨used, split, formed⟩, -, located, -⟩ :=
    rereads S (fit_of_closes edge rfl) rfl (fun _ own => own.1) w front front paired
  have innerLeft : ∀ token ∈ left, token.kind ≠ .dot :=
    fun token member => inner token (split ▸ List.mem_append_right used member)
  have whole : front ++ back = used ++ (left ++ back) := by rw [split, List.append_assoc]
  refine orderlyAt_of_near ran ⟨whole, rfl, formed⟩ fun problem failed => .inr ?_
  rw [Near, Surroundings.first, reach_append innerLeft]
  rcases located problem failed with ⟨-, member⟩ | edge
  · rw [split, List.mem_append] at member
    exact member.imp_right fun member => .inl (List.mem_append_left _ member)
  · refine .inr ?_
    rw [edge]
    show back.head?.getD finish ∈ left ++ reach back ∨ back.head?.getD finish = finish
    cases back with
    | nil => exact .inr rfl
    | cons dot rest =>
      refine .inl (List.mem_append_right left ?_)
      simp [reach, ends dot rfl]

end Parser

end AgentSpeak.Source
