import AgentSpeak.Proofs.Source.Layout
import AgentSpeak.Proofs.Source.Run

namespace AgentSpeak.Source

theorem Token.Like.problem {token other : Token} (like : token.Like other) :
    other.problem? = none ↔ token.problem? = none := by
  unfold Token.problem?
  rw [like.kind, like.terminated]
  split <;> simp

theorem Likewise.length_eq {tokens others : List Token} (likewise : Likewise tokens others) :
    others.length = tokens.length := by
  induction likewise with
  | nil => rfl
  | cons _ _ _ ih => rw [List.length_cons, List.length_cons, ih]

/-- Places in two texts with the same tokens left. -/
structure Cursor.Like (cursor other : Cursor) : Prop where
  upcoming : Likewise cursor.upcoming other.upcoming
  finish : cursor.finish.Like other.finish
  ended : cursor.finish.kind = .endOfInput
  wildcards : other.wildcards = cursor.wildcards

namespace Cursor.Like

variable {cursor other : Cursor}

theorem token (like : cursor.Like other) : cursor.token.Like other.token := by
  obtain ⟨tokens, finish, w⟩ := cursor
  obtain ⟨others, last, w'⟩ := other
  cases like.upcoming with
  | nil => exact like.finish
  | cons same _ _ => exact same

theorem behind (like : cursor.Like other) :
    (Parser.behind cursor).Like (Parser.behind other) := by
  obtain ⟨tokens, finish, w⟩ := cursor
  obtain ⟨others, last, w'⟩ := other
  refine ⟨?_, like.finish, like.ended, like.wildcards⟩
  cases like.upcoming with
  | nil => exact .nil
  | cons _ _ rest => exact rest

theorem following (like : cursor.Like other) : cursor.following.Like other.following :=
  like.behind.token

/-- Behind a full stop there is a name in both texts or in neither. -/
theorem touches (like : cursor.Like other) (dot : cursor.token.kind = .dot) :
    (Parser.behind cursor).token.kind = .functor ∧
        (Parser.behind cursor).token.position.offset = cursor.token.stop ↔
      (Parser.behind other).token.kind = .functor ∧
        (Parser.behind other).token.position.offset = other.token.stop := by
  obtain ⟨tokens, finish, w⟩ := cursor
  obtain ⟨others, last, w'⟩ := other
  have ended : finish.kind = .endOfInput := like.ended
  have ended' : last.kind = .endOfInput := like.finish.kind.trans ended
  have behind (token : Token) (tokens : List Token) (finish : Token)
      (ended : finish.kind = .endOfInput) : token.Touches tokens ↔
        (tokens.head?.getD finish).kind = .functor ∧
          (tokens.head?.getD finish).position.offset = token.stop := by
    cases tokens <;> simp [Token.Touches, ended]
  cases like.upcoming with
  | nil => exact absurd (ended.symm.trans dot) (by decide)
  | @cons token other tokens others _ touches _ =>
    have iff := touches dot
    rw [behind token tokens finish ended, behind other others last ended'] at iff
    exact iff

theorem count (like : cursor.Like other) (w : Nat) :
    Cursor.Like { cursor with wildcards := w } { other with wildcards := w } :=
  ⟨like.upcoming, like.finish, like.ended, rfl⟩

end Cursor.Like

namespace Parser

variable {α β : Type}

/-- Two runs give the same value or have a problem each, which ends the reading at once in both or in
neither, and leave the same tokens. -/
inductive Same : Except Problem α × Cursor → Except Problem α × Cursor → Prop where
  | ok {value : α} {after last : Cursor} (like : after.Like last) :
      Same (.ok value, after) (.ok value, last)
  | error {problem problem' : Problem} {after last : Cursor}
      (fatal : problem'.isFatal = problem.isFatal) (like : after.Like last) :
      Same (.error problem, after) (.error problem', last)

/-- Two parsers on the same tokens in different places do the same. -/
def Together (parser another : Parser α) : Prop :=
  ∀ cursor other, cursor.Like other → Same (parser cursor) (another other)

/-- A parser that does not look at places. -/
class Placeless (parser : Parser α) : Prop where
  together : Together parser parser

section Steps

variable {parser another : Parser α} {cursor other : Cursor}

theorem Same.bind {next next' : α → Parser β} (first : Same (parser cursor) (another other))
    (rest : ∀ value after last, after.Like last → Same (next value after) (next' value last)) :
    Same ((parser >>= next) cursor) ((another >>= next') other) := by
  rw [run_bind, run_bind]
  generalize parser cursor = run at first
  generalize another other = run' at first
  cases first with
  | ok like => exact rest _ _ _ like
  | error fatal like => exact .error fatal like

/-- Looking at a token of one text and at the same one of another. -/
theorem same_look {look : Parser Token} {which : Cursor → Token} {next next' : Token → Parser α}
    (looks : ∀ cursor, look cursor = wellFormed (which cursor) cursor) (like : cursor.Like other)
    (alike : (which cursor).Like (which other))
    (rest : Same (next (which cursor) cursor) (next' (which other) other)) :
    Same ((look >>= next) cursor) ((look >>= next') other) := by
  have formed := alike.problem
  rw [run_bind, run_bind, looks, looks, run_wellFormed, run_wellFormed]
  cases found : (which cursor).problem? with
  | none =>
    rw [formed.mpr found]
    exact rest
  | some problem =>
    obtain ⟨problem', found'⟩ := Option.ne_none_iff_exists'.mp
      (mt formed.mp (found ▸ Option.some_ne_none problem))
    rw [found']
    exact .error (by rw [isFatal_of_problem? found, isFatal_of_problem? found']) like

theorem same_peek {next next' : Token → Parser α} (like : cursor.Like other)
    (rest : Same (next cursor.token cursor) (next' other.token other)) :
    Same ((peek >>= next) cursor) ((peek >>= next') other) :=
  same_look (fun _ => rfl) like like.token rest

theorem same_advance {next next' : Token → Parser α} (like : cursor.Like other)
    (rest : Same (next cursor.token (behind cursor)) (next' other.token (behind other))) :
    Same ((advance >>= next) cursor) ((advance >>= next') other) := by
  rw [advance, bind_assoc, bind_assoc]
  exact same_peek like rest

theorem together_throw {problem problem' : Problem} (fatal : problem'.isFatal = problem.isFatal) :
    Together (throw problem : Parser α) (throw problem') :=
  fun _ _ like => .error fatal like

theorem together_peek {next next' : Token → Parser α}
    (rest : ∀ token other : Token, token.Like other → Together (next token) (next' other)) :
    Together (peek >>= next) (peek >>= next') :=
  fun cursor other like => same_peek like (rest _ _ like.token cursor other like)

instance (expectation : Expectation) : Placeless (fail expectation : Parser α) :=
  ⟨together_peek fun _ _ _ => together_throw rfl⟩

theorem same_expect {next next' : Token → Parser α} {kind : Kind} {expectation : Expectation}
    (like : cursor.Like other)
    (rest : cursor.token.kind = kind →
      Same (next cursor.token (behind cursor)) (next' other.token (behind other))) :
    Same ((expect kind expectation >>= next) cursor)
      ((expect kind expectation >>= next') other) := by
  rw [expect_bind, expect_bind]
  apply same_peek like
  rw [like.token.kind]
  split
  next same => exact same_advance like (rest same)
  next => exact Placeless.together cursor other like

theorem Together.bind {next next' : α → Parser β} (first : Together parser another)
    (rest : ∀ value, Together (next value) (next' value)) :
    Together (parser >>= next) (another >>= next') :=
  fun cursor other like => (first cursor other like).bind fun value => rest value

/-- What comes behind a look at the next token depends only on what the token is. -/
theorem placeless_peek {next : Token → Parser α}
    (blind : ∀ token other : Token, token.Like other → next other = next token)
    (each : ∀ token, Placeless (next token)) : Placeless (peek >>= next) :=
  ⟨together_peek fun token other like => blind token other like ▸ (each token).together⟩

theorem placeless_peekSecond {next : Token → Parser α}
    (blind : ∀ token other : Token, token.Like other → next other = next token)
    (each : ∀ token, Placeless (next token)) : Placeless (peekSecond >>= next) := by
  refine ⟨fun cursor other like => same_look (fun _ => rfl) like like.following ?_⟩
  rw [blind _ _ like.following]
  exact (each _).together cursor other like

end Steps

section Instances

variable {parser another : Parser α}

instance (value : α) : Placeless (pure value : Parser α) :=
  ⟨fun _ _ like => .ok like⟩

instance (problem : Problem) : Placeless (throw problem : Parser α) :=
  ⟨together_throw rfl⟩

instance {next : α → Parser β} [Placeless parser] [∀ value, Placeless (next value)] :
    Placeless (parser >>= next) :=
  ⟨Placeless.together.bind fun _ => Placeless.together⟩

instance {condition : Prop} [Decidable condition] [Placeless parser] [Placeless another] :
    Placeless (if condition then parser else another) := by
  split <;> infer_instance

instance [Placeless parser] : Placeless (advance >>= fun _ => parser) :=
  ⟨fun _ _ like => same_advance like (Placeless.together _ _ like.behind)⟩

instance (kind : Kind) (expectation : Expectation) [Placeless parser] :
    Placeless (expect kind expectation >>= fun _ => parser) :=
  ⟨fun _ _ like => same_expect like fun _ => Placeless.together _ _ like.behind⟩

instance (kind : Kind) : Placeless (check kind) := by
  unfold check
  exact placeless_peek (fun token other like => by rw [like.kind]) fun _ => inferInstance

instance (kind : Kind) : Placeless (accept kind) := by
  unfold accept
  infer_instance

instance : Placeless budget := by
  refine ⟨fun cursor other like => ?_⟩
  rw [run_budget, run_budget, like.upcoming.length_eq]
  exact .ok like

instance : Placeless wildcard := by
  refine ⟨fun cursor other like => ?_⟩
  rw [run_wildcard, run_wildcard, like.wildcards]
  exact .ok (like.count _)

/-- What is given back is the same place, and the same wildcards have been counted. -/
instance {inner : Parser (Option α)} [Placeless inner] : Placeless (attempt inner) := by
  refine ⟨fun cursor other like => ?_⟩
  have same : Same (inner cursor) (inner other) := Placeless.together cursor other like
  unfold attempt
  generalize inner cursor = run at same
  generalize inner other = run' at same
  cases same with
  | @ok value after last like' =>
    cases value with
    | some value => exact .ok like'
    | none => exact .ok (like'.wildcards ▸ like.count _)
  | @error problem problem' after last fatal like' =>
    dsimp only
    rw [fatal]
    cases problem.isFatal with
    | true => exact .error fatal like'
    | false => exact .ok (like'.wildcards ▸ like.count _)

instance {operator? : Kind → Option (α → α → α)} [Placeless parser] (fuel : Nat) (left : α) :
    Placeless (chainFrom operator? parser fuel left) := by
  induction fuel generalizing left with
  | zero =>
    unfold chainFrom
    infer_instance
  | succ fuel ih =>
    unfold chainFrom
    refine placeless_peek (fun token other like => by rw [like.kind]) fun token => ?_
    split <;> infer_instance

instance {operator? : Kind → Option (α → α → α)} [Placeless parser] :
    Placeless (chain operator? parser) := by
  unfold chain
  infer_instance

instance [Placeless parser] (fuel : Nat) : Placeless (commaSeparated parser fuel) := by
  induction fuel with
  | zero =>
    unfold commaSeparated
    infer_instance
  | succ fuel ih =>
    unfold commaSeparated
    infer_instance

end Instances

end Parser

end AgentSpeak.Source
