import AgentSpeak.Proofs.Source.Agreement
import AgentSpeak.Proofs.Source.Lexeme

namespace AgentSpeak.Source

/-- The tokens of a text that begins at a position. -/
def lex (position : Position) (text : List Char) : List Token :=
  (tokensFrom text.length position text).1

/-- A token that is not white space. -/
def Token.isVisible (token : Token) : Bool :=
  !(token.kind == .whitespace && token.terminated)

/-- The tokens of a text that are not white space. -/
def visible (position : Position) (text : List Char) : List Token :=
  (lex position text).filter Token.isVisible

/-- The tokens of a text that a grammar sees. -/
def scan (position : Position) (text : List Char) : List Token :=
  (lex position text).filter fun token => !token.isSkipped

variable {position : Position} {c : Char} {rest text more : List Char}

theorem tokensFrom_end (fuel : Nat) (enough : text.length ≤ fuel) (position : Position) :
    (tokensFrom fuel position text).2 = position.after text := by
  induction fuel generalizing position text with
  | zero =>
    obtain rfl := List.length_eq_zero_iff.mp (Nat.le_zero.mp enough)
    rfl
  | succ fuel ih =>
    cases text with
    | nil => rfl
    | cons c rest =>
      have splits := Lexeme.splits_next c rest
      have shorter := splits.shorter
      rw [List.length_cons] at shorter enough
      calc
        (tokensFrom (fuel + 1) position (c :: rest)).2 =
            (position.after (Lexeme.next c rest).text).after (Lexeme.next c rest).rest :=
          ih (by omega) _
        _ = position.after (c :: rest) := by rw [← Position.after_append, splits.whole]

theorem tokensFrom_fuel (fuel fuel' : Nat) (enough : text.length ≤ fuel)
    (enough' : text.length ≤ fuel') (position : Position) :
    tokensFrom fuel position text = tokensFrom fuel' position text := by
  induction fuel generalizing fuel' position text with
  | zero =>
    obtain rfl := List.length_eq_zero_iff.mp (Nat.le_zero.mp enough)
    cases fuel' <;> rfl
  | succ fuel ih =>
    cases text with
    | nil => cases fuel' <;> rfl
    | cons c rest =>
      have shorter := (Lexeme.splits_next c rest).shorter
      rw [List.length_cons] at shorter enough enough'
      obtain ⟨fuel', rfl⟩ := Nat.exists_eq_add_one_of_ne_zero (Nat.ne_zero_of_lt enough')
      rw [tokensFrom, tokensFrom, ih fuel' (by omega) (by omega)]

@[simp] theorem lex_nil (position : Position) : lex position [] = [] := rfl

/-- The first token of a text. -/
def firstToken (position : Position) (c : Char) (rest : List Char) : Token :=
  ⟨(Lexeme.next c rest).kind, (Lexeme.next c rest).text, position, (Lexeme.next c rest).terminated⟩

theorem lex_cons (position : Position) (c : Char) (rest : List Char) :
    lex position (c :: rest) = firstToken position c rest ::
      lex (position.after (Lexeme.next c rest).text) (Lexeme.next c rest).rest := by
  have shorter := (Lexeme.splits_next c rest).shorter
  rw [List.length_cons] at shorter
  rw [lex, List.length_cons, tokensFrom,
    tokensFrom_fuel rest.length (Lexeme.next c rest).rest.length (by omega) (Nat.le_refl _)]
  rfl

/-- A text is read token by token. -/
theorem lexing {motive : List Char → Prop} (nil : motive [])
    (cons : ∀ c rest, motive (Lexeme.next c rest).rest → motive (c :: rest)) (text : List Char) :
    motive text := by
  induction size : text.length using Nat.strongRecOn generalizing text with
  | ind size ih =>
    cases text with
    | nil => exact nil
    | cons c rest =>
      subst size
      exact cons c rest (ih _ (Lexeme.splits_next c rest).shorter _ rfl)

theorem scan_eq_filter (position : Position) (text : List Char) :
    scan position text = (visible position text).filter fun token => !token.isSkipped := by
  rw [scan, visible, List.filter_filter]
  refine List.filter_congr fun token _ => ?_
  cases token with
  | mk kind text position terminated =>
    cases kind <;> cases terminated <;> rfl

theorem offset_after (position : Position) (text : List Char) :
    (position.after text).offset = position.offset + text.length := by
  induction text generalizing position with
  | nil => rfl
  | cons c rest ih =>
    have one : (position.next c).offset = position.offset + 1 := by
      unfold Position.next
      split <;> rfl
    rw [Position.after, List.foldl_cons, ← Position.after, ih, one, List.length_cons]
    omega

/-- A text has the same tokens at every place. -/
theorem lex_moved {position position' : Position} {distance : Nat}
    (moved : position'.offset = position.offset + distance) (text : List Char) :
    List.Forall₂ (Token.Moved distance) (lex position text) (lex position' text) := by
  induction text using lexing generalizing position position' with
  | nil => exact .nil
  | cons c rest ih =>
    rw [lex_cons, lex_cons]
    refine .cons ⟨rfl, rfl, rfl, moved⟩ (ih ?_)
    rw [offset_after, offset_after, moved]
    omega

theorem scan_moved {position position' : Position} {distance : Nat}
    (moved : position'.offset = position.offset + distance) (text : List Char) :
    List.Forall₂ (Token.Moved distance) (scan position text) (scan position' text) := by
  have skipped : ∀ token counterpart : Token, token.Moved distance counterpart →
      counterpart.isSkipped = token.isSkipped := by
    intro token counterpart same
    rw [Token.isSkipped, Token.isSkipped, same.kind, same.terminated]
  rw [scan, scan]
  have all := lex_moved moved text
  generalize lex position text = tokens at all
  generalize lex position' text = counterparts at all
  induction all with
  | nil => exact .nil
  | @cons token counterpart _ _ same _ ih =>
    rw [List.filter_cons, List.filter_cons, skipped token counterpart same]
    split
    · exact .cons same ih
    · exact ih

theorem Surroundings.paired_of_moved {S : Surroundings} {tokens counterparts : List Token}
    (moved : List.Forall₂ (Token.Moved S.distance) tokens counterparts)
    (own : ∀ token ∈ tokens, S.allowed token) : S.Paired tokens counterparts := by
  induction moved with
  | nil => exact .nil
  | cons same _ ih =>
    exact .cons same (own _ (by simp)) (ih fun token member => own token (by simp [member]))

/-- White space before a text changes only its place. -/
theorem visible_blank (blank : Text.isBlank c = true) (position : Position) (text : List Char) :
    visible position (c :: text) = visible (position.next c) text := by
  have token : ∀ position c rest, Text.isBlank c = true → visible position (c :: rest) =
      visible (position.after ((c :: rest).takeWhile Text.isBlank))
        ((c :: rest).dropWhile Text.isBlank) := by
    intro position c rest blank
    have run := Lexeme.next_blank blank rest
    rw [visible, lex_cons, run, firstToken, run]
    rfl
  have whole : ∀ position text, visible position text =
      visible (position.after (text.takeWhile Text.isBlank)) (text.dropWhile Text.isBlank) := by
    intro position text
    cases text with
    | nil => rfl
    | cons d rest =>
      by_cases another : Text.isBlank d = true
      · exact token position d rest another
      · simp [another, Position.after]
  rw [token position c text blank, whole (position.next c) text, List.takeWhile_cons_of_pos blank,
    List.dropWhile_cons_of_pos blank]
  rfl

theorem visible_blanks (blank : ∀ c ∈ text, Text.isBlank c = true) (position : Position)
    (more : List Char) :
    visible position (text ++ more) = visible (position.after text) more := by
  induction text generalizing position with
  | nil => rfl
  | cons c rest ih =>
    rw [List.cons_append, visible_blank (blank c (by simp)),
      ih fun d member => blank d (by simp [member])]
    rfl

/-- A token that stays as it is with `more` behind it. -/
def Token.Closed (more : List Char) (token : Token) : Prop :=
  token.problem? = none ∧ (token.kind = .lineComment → more.head? = some '\n')

theorem Token.complete {token : Token} (formed : token.problem? = none) :
    token.kind ≠ .unknown ∧
      (token.kind = .blockComment ∨ token.kind = .string → token.terminated = true) := by
  cases token with
  | mk kind text position terminated =>
    cases kind <;> cases terminated <;> simp_all [Token.problem?]

theorem visible_cons (position : Position) (c : Char) (rest : List Char) :
    visible position (c :: rest) =
      (if (firstToken position c rest).isVisible then [firstToken position c rest] else []) ++
        visible (position.after (Lexeme.next c rest).text) (Lexeme.next c rest).rest := by
  rw [visible, lex_cons, List.filter_cons]
  split <;> rfl

/-- The first token of a text stays as it is, unless it is white space that goes on behind. -/
theorem next_append (detached : Detached more)
    (closed : (firstToken position c rest).isVisible = true →
      (firstToken position c rest).Closed more)
    (stops : Lexeme.Stops Text.isBlank (c :: rest) more) :
    Lexeme.next c (rest ++ more) = (Lexeme.next c rest).followedBy more := by
  have whitespace : (firstToken position c rest).isVisible = false →
      (Lexeme.next c rest).kind = .whitespace ∧ (Lexeme.next c rest).terminated = true := by
    intro hidden
    simpa [Token.isVisible, firstToken] using hidden
  refine Lexeme.next_followedBy detached ?_ ?_ fun _ => stops
  · cases isVisible : (firstToken position c rest).isVisible with
    | false =>
      obtain ⟨kind, terminated⟩ := whitespace isVisible
      exact ⟨by simp [kind], by simp [terminated]⟩
    | true => exact Token.complete (closed isVisible).1
  · intro line
    cases isVisible : (firstToken position c rest).isVisible with
    | false => simp [(whitespace isVisible).1] at line
    | true => exact (closed isVisible).2 line

/-- White space that is not all of a text stops inside the text. -/
theorem stops_blank (some : ∃ d ∈ text, Text.isBlank d = false) (more : List Char) :
    Lexeme.Stops Text.isBlank text more := by
  refine .inl fun none => ?_
  obtain ⟨d, member, visible⟩ := some
  have all := List.dropWhile_eq_nil_iff.mp none d member
  simp [visible] at all

/-- A text that carries on no token, and that begins with no white space, leaves all tokens of the text
before it as they are. -/
theorem lex_joined (detached : Detached more)
    (shown : ∀ d ∈ more.head?, Text.isBlank d = false)
    (closed : ∀ token ∈ visible position text, token.Closed more) :
    lex position (text ++ more) = lex position text ++ lex (position.after text) more := by
  induction text using lexing generalizing position with
  | nil => rfl
  | cons c rest ih =>
    rw [visible_cons] at closed
    have first : (firstToken position c rest).isVisible = true →
        (firstToken position c rest).Closed more := fun isVisible =>
      closed _ (by simp [isVisible])
    have same := next_append detached first (.inr shown)
    have splits := Lexeme.splits_next c rest
    rw [List.cons_append, lex_cons, lex_cons, firstToken, same, Lexeme.followedBy,
      ih fun token member => closed token (List.mem_append_right _ member),
      ← Position.after_append, splits.whole]
    rfl

/-- Text behind that carries nothing on adds its tokens to those of a text. -/
theorem visible_append (detached : Detached more)
    (closed : ∀ token ∈ visible position text, token.Closed more) :
    visible position (text ++ more) =
      visible position text ++ visible (position.after text) more := by
  induction text using lexing generalizing position with
  | nil => rfl
  | cons c rest ih =>
    by_cases allBlank : ∀ d ∈ c :: rest, Text.isBlank d = true
    · have none := visible_blanks allBlank position []
      rw [List.append_nil] at none
      rw [visible_blanks allBlank, none]
      rfl
    · have some : ∃ d ∈ c :: rest, Text.isBlank d = false := by
        simpa only [not_forall, Bool.not_eq_true, exists_prop] using allBlank
      rw [visible_cons] at closed
      have first : (firstToken position c rest).isVisible = true →
          (firstToken position c rest).Closed more := fun isVisible =>
        closed _ (by simp [isVisible])
      have same := next_append detached first (stops_blank some more)
      have token : firstToken position c (rest ++ more) = firstToken position c rest := by
        rw [firstToken, same]
        rfl
      have splits := Lexeme.splits_next c rest
      rw [List.cons_append, visible_cons, visible_cons, token, same]
      rw [Lexeme.followedBy]
      rw [ih fun token member => closed token (List.mem_append_right _ member),
        ← Position.after_append, splits.whole, List.append_assoc]

/-- The end of input behind a text. -/
def finishOf (text : String) : Token :=
  ⟨.endOfInput, [], Position.start.after text.toList, true⟩

theorem tokenize_eq (text : String) :
    tokenize text = ⟨lex .start text.toList, finishOf text⟩ := by
  rw [finishOf, ← tokensFrom_end text.toList.length (Nat.le_refl _)]
  rfl

theorem start_eq (text : String) :
    Parser.start text = ⟨scan Position.start text.toList, finishOf text, 0⟩ := by
  rw [finishOf, ← tokensFrom_end text.toList.length (Nat.le_refl _)]
  rfl

theorem no_endOfInput {token : Token} (member : token ∈ lex position text) :
    token.kind ≠ .endOfInput := by
  induction text using lexing generalizing position with
  | nil => cases member
  | cons c rest ih =>
    rw [lex_cons, List.mem_cons] at member
    rcases member with rfl | later
    · exact (Lexeme.kindOf_next c rest).known
    · exact ih later

/-- A text that is read as a value: the parser gives it and ends before a full stop at most. -/
theorem read_ok {α : Type} {parser : Parser α} {text : String} {value : α}
    (done : parser.read text = .ok value) :
    ∃ middle after, parser (Parser.start text) = (.ok value, middle) ∧
      Parser.finish middle = (.ok (), after) := by
  unfold Parser.read at done
  split at done
  next result after ran =>
    cases done
    obtain ⟨value, middle, first, rest⟩ := Parser.ok_bind ran
    obtain ⟨_, last, ended, same⟩ := Parser.ok_bind rest
    cases same
    exact ⟨middle, _, first, ended⟩
  next => cases done

/-- Where reading a text ends, nothing is left of it but perhaps a full stop. -/
theorem finish_ok {tokens : List Token} {finish : Token} {w : Nat} {after : Cursor}
    (inside : ∀ token ∈ tokens, token.kind ≠ .endOfInput)
    (done : Parser.finish ⟨tokens, finish, w⟩ = (.ok (), after)) :
    tokens = [] ∨ ∃ token, tokens = [token] ∧ token.kind = .dot := by
  have ended : ∀ cursor token after expectation,
      Parser.expect .endOfInput expectation cursor = (.ok token, after) →
      (∀ token ∈ cursor.upcoming, token.kind ≠ .endOfInput) → cursor.upcoming = [] := by
    intro cursor token after expectation done inside
    obtain ⟨-, kind, -, -⟩ := Parser.ok_expect done
    cases upcoming : cursor.upcoming with
    | nil => rfl
    | cons first rest =>
      rw [Cursor.token, upcoming] at kind
      exact absurd kind (inside first (by simp [upcoming]))
  rw [Parser.finish] at done
  obtain ⟨found, middle, accepted, ran⟩ := Parser.ok_bind done
  obtain ⟨token, last, expected, -⟩ := Parser.ok_bind ran
  obtain ⟨-, ⟨-, kind, rfl⟩ | ⟨-, -, rfl⟩⟩ := Parser.ok_accept accepted
  · cases tokens with
    | nil => exact .inl rfl
    | cons first rest =>
      have none : rest = [] := ended _ _ _ _ expected fun token member =>
        inside token (List.mem_cons_of_mem _ member)
      subst none
      exact .inr ⟨first, rfl, kind⟩
  · exact .inl (ended _ _ _ _ expected inside)

end AgentSpeak.Source
