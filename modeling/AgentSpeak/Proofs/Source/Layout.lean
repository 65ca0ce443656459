import AgentSpeak.Proofs.Source.Cutting
import AgentSpeak.Proofs.Source.Tidy

namespace AgentSpeak.Source

namespace Lexeme

variable {c : Char} {rest : List Char}

theorem nameKind_noTrivia (text : List Char) : (nameKind text).isTrivia = false := by
  have kinds : ∀ kind ∈ nameKinds, kind.isTrivia = false := by decide
  exact kinds _ (nameKind_mem text)

theorem operator_noTrivia (c : Char) (rest : List Char) :
    (operator c rest).kind.isTrivia = false := by
  have kinds : ∀ entry ∈ Kind.operators, entry.2.isTrivia = false := by decide
  rcases operator_kind c rest with unknown | ⟨entry, listed, same, -⟩
  · rw [unknown]
    rfl
  · rw [same]
    exact kinds entry listed

theorem quote_noTrivia (rest : List Char) : (quote rest).kind.isTrivia = false := by
  rcases quote_kind rest with string | unknown
  · rw [string]
    rfl
  · rw [unknown]
    rfl

/-- A line comment goes on to the end of its line. -/
theorem next_line (line : (next c rest).kind = .lineComment) :
    next c rest = run .lineComment (· != '\n') (c :: rest) := by
  have names : Kind.lineComment ∉ nameKinds := by decide
  have operators : ∀ entry ∈ Kind.operators, entry.2 ≠ .lineComment := by decide
  refine @next_cases (fun lexeme => lexeme.kind = .lineComment →
    lexeme = run .lineComment (· != '\n') (c :: rest)) c rest ?_ ?_ ?_ ?_ ?_ ?_ ?_ line
  · exact fun _ => nofun
  · exact fun _ => nofun
  · exact fun _ same => absurd (same ▸ nameKind_mem _) names
  · exact fun _ _ => rfl
  · exact fun _ _ => nofun
  · intro _ same
    rcases quote_kind rest with string | unknown
    · cases same.symm.trans string
    · cases same.symm.trans unknown
  · intro same
    rcases operator_kind c rest with unknown | ⟨entry, listed, kind, -⟩
    · cases same.symm.trans unknown
    · exact absurd (kind.symm.trans same) (operators entry listed)

/-- A line comment is complete wherever it ends. -/
theorem terminated_lineComment (line : (next c rest).kind = .lineComment) :
    (next c rest).terminated = true := by
  rw [next_line line, run]

/-- Behind a line comment there is the end of its line. -/
theorem head_behind_line (line : (next c rest).kind = .lineComment) :
    ∀ d ∈ (next c rest).rest.head?, d = '\n' := by
  intro d head
  rw [next_line line, run] at head
  have stopped := List.head?_dropWhile_not (· != '\n') (c :: rest)
  rw [Option.mem_def.mp head] at stopped
  simpa using stopped

/-- White space begins with a blank, and a comment with a number sign or with two signs. -/
theorem trivia_starts (trivia : (next c rest).kind.isTrivia = true) :
    Text.isBlank c = true ∨ c = '#' ∨
      c = '/' ∧ ∃ inside, rest = '/' :: inside ∨ rest = '*' :: inside := by
  refine @next_cases (fun lexeme => lexeme.kind.isTrivia = true → _) c rest
    (fun blank _ => .inl blank) (fun _ => nofun) ?_ ?_ ?_ ?_ ?_ trivia
  · exact fun _ trivia => absurd trivia (by simp [name, nameKind_noTrivia])
  · rintro (rfl | ⟨rfl, head⟩) -
    · exact .inr (.inl rfl)
    · obtain ⟨inside, rfl⟩ := List.head?_eq_some_iff.mp head
      exact .inr (.inr ⟨rfl, inside, .inl rfl⟩)
  · intro inside whole _
    obtain ⟨rfl, rfl⟩ := List.cons.inj whole
    exact .inr (.inr ⟨rfl, inside, .inr rfl⟩)
  · exact fun _ trivia => absurd trivia (by simp [quote_noTrivia])
  · exact fun trivia => absurd trivia (by simp [operator_noTrivia])

/-- White space or a complete comment that ends by itself does not depend on what comes later. -/
theorem trivia_followedBy (trivia : (next c rest).kind.isTrivia = true)
    (complete : (next c rest).terminated = true) (more : List Char)
    (ends : (next c rest).rest ≠ [] ∨ (next c rest).kind ≠ .whitespace ∧
      ((next c rest).kind = .lineComment → ∀ d ∈ more.head?, d = '\n')) :
    next c (rest ++ more) = (next c rest).followedBy more := by
  have stops {text : List Char} (ends : (run .lineComment (· != '\n') text).rest ≠ [] ∨
      Kind.lineComment ≠ .whitespace ∧ (Kind.lineComment = .lineComment →
        ∀ d ∈ more.head?, d = '\n')) : Stops (· != '\n') text more :=
    ends.imp_right fun last d head => by simp [last.2 rfl d head]
  rcases trivia_starts trivia with blank | rfl | ⟨rfl, inside, rfl | rfl⟩
  · rw [next_blank blank] at ends ⊢
    rw [next_blank blank]
    exact run_followedBy _ (.inl (ends.resolve_right fun last => last.1 rfl))
  · exact run_followedBy _ (@stops ('#' :: rest) ends)
  · exact run_followedBy _ (@stops ('/' :: '/' :: inside) ends)
  · have closed : (commentTail inside).2.2 = true := complete
    rw [List.cons_append, next_blockComment, next_blockComment, commentTail_followedBy closed]
    simp [followedBy, closed]

end Lexeme

variable {position : Position} {text gap gap' more : List Char}

/-- White space and complete comments, with white space first and last. -/
structure IsLayout (text : List Char) : Prop where
  skipped : ∀ token ∈ lex .start text, token.isSkipped = true
  begins : (lex .start text).head?.map Token.kind = some .whitespace
  ends : (lex .start text).getLast?.map Token.kind = some .whitespace

instance (text : List Char) : Decidable (IsLayout text) :=
  decidable_of_iff ((∀ token ∈ lex .start text, token.isSkipped = true) ∧
      (lex .start text).head?.map Token.kind = some .whitespace ∧
      (lex .start text).getLast?.map Token.kind = some .whitespace)
    ⟨fun ⟨skipped, begins, ends⟩ => ⟨skipped, begins, ends⟩,
      fun layout => ⟨layout.skipped, layout.begins, layout.ends⟩⟩

/-- White space is no digit of any script. -/
theorem isDigit_of_isBlank {c : Char} (blank : Text.isBlank c = true) : Text.isDigit c = false := by
  have apart : ∀ range ∈ Text.blankRanges, ∀ start ∈ Text.zeros,
      range.2 < start ∨ start + 9 < range.1 := by decide
  obtain ⟨range, listed, inside⟩ := List.any_eq_true.mp blank
  simp only [Bool.and_eq_true, decide_eq_true_eq] at inside
  have none : Text.zeros.find? (fun start => start ≤ c.toNat && c.toNat ≤ start + 9) = none := by
    refine List.find?_eq_none.mpr fun start member => ?_
    have outside := apart range listed start member
    simp only [Bool.and_eq_true, decide_eq_true_eq]
    omega
  rw [Text.isDigit, Text.digit?, none]
  rfl

/-- White space before a text ends the token before it. -/
theorem detached_blank {c : Char} (blank : Text.isBlank c = true) (rest : List Char) :
    Detached (c :: rest) := by
  have signs : ∀ sign ∈ ['-', '!', '+', '*', '=', '/', '.'], Text.isBlank sign = false := by
    simp [Text.isBlank, Text.blankRanges]
  have solid : ∀ sign ∈ ['-', '!', '+', '*', '=', '/', '.'], c ≠ sign := by
    rintro sign listed rfl
    cases blank.symm.trans (signs c listed)
  intro d head
  obtain rfl : c = d := by simpa using head
  refine ⟨?_, isDigit_of_isBlank blank, fun listed => ?_, fun point => ?_⟩
  · rw [Bool.eq_false_iff]
    intro name
    rw [Lexeme.isNameRest, Char.isAlphanum, Bool.or_assoc, Bool.or_comm c.isDigit, ← Bool.or_assoc,
      Bool.or_eq_true] at name
    rcases name with start | digit
    · cases blank.symm.trans (nameStart_bounds start).1
    · cases (isDigit_of_isBlank blank).symm.trans (Text.isDigit_of_isDigit digit)
  · exact solid c (List.mem_append_left ['.'] listed) rfl
  · exact absurd point (solid '.' (by decide))

theorem IsLayout.nonempty (layout : IsLayout text) : text ≠ [] := by
  rintro rfl
  cases layout.begins

theorem IsLayout.detached (layout : IsLayout text) (more : List Char) :
    Detached (text ++ more) := by
  cases text with
  | nil => exact absurd rfl layout.nonempty
  | cons c rest =>
    have begins := layout.begins
    rw [lex_cons, List.head?_cons, Option.map_some] at begins
    exact detached_blank ((Lexeme.kindOf_next c rest).blank (Option.some.inj begins)) _

theorem scan_blanks (blank : ∀ c ∈ text, Text.isBlank c = true) (position : Position)
    (more : List Char) : scan position (text ++ more) = scan (position.after text) more := by
  rw [scan_eq_filter, visible_blanks blank, ← scan_eq_filter]

theorem scan_skip {c : Char} {rest : List Char}
    (skipped : (firstToken position c rest).isSkipped = true) :
    scan position (c :: rest) =
      scan (position.after (Lexeme.next c rest).text) (Lexeme.next c rest).rest := by
  rw [scan, lex_cons, List.filter_cons_of_neg (by simp [skipped]), ← scan]

theorem scan_see {c : Char} {rest : List Char}
    (seen : (firstToken position c rest).isSkipped = false) :
    scan position (c :: rest) = firstToken position c rest ::
      scan (position.after (Lexeme.next c rest).text) (Lexeme.next c rest).rest := by
  rw [scan, lex_cons, List.filter_cons_of_pos (by simp [seen]), ← scan]

/-- Where all tokens of a text are skipped and the last one is white space, the text has no token that
a grammar sees and leaves the tokens behind it alone. -/
theorem scan_skipped (skipped : ∀ token ∈ lex position text, token.isSkipped = true)
    (ends : ∀ last ∈ (lex position text).getLast?, last.kind = .whitespace) (place : Position)
    (more : List Char) : scan place (text ++ more) = scan (place.after text) more := by
  induction text using lexing generalizing position place with
  | nil => rfl
  | cons c rest ih =>
    rw [lex_cons] at skipped ends
    have splits := Lexeme.splits_next c rest
    have first := skipped _ List.mem_cons_self
    by_cases last : (Lexeme.next c rest).rest = []
    · have kind : (Lexeme.next c rest).kind = .whitespace := by
        rw [last, lex_nil] at ends
        exact ends _ rfl
      have blank := (Lexeme.kindOf_next c rest).blank kind
      rw [Lexeme.next_blank blank] at last
      exact scan_blanks (List.dropWhile_eq_nil_iff.mp last) place more
    · rw [Token.isSkipped, Bool.and_eq_true] at first
      have same := Lexeme.trivia_followedBy first.1 first.2 more (.inl last)
      have token : (firstToken place c (rest ++ more)).isSkipped = true := by
        rw [firstToken, same, Token.isSkipped, Bool.and_eq_true]
        exact first
      rw [List.cons_append, scan_skip token, same, ← splits.whole, Position.after_append]
      refine ih (fun token member => skipped token (List.mem_cons_of_mem _ member)) ?_ _
      obtain ⟨d, others, behind⟩ := List.exists_cons_of_ne_nil last
      rw [behind, lex_cons, List.getLast?_cons_cons, ← lex_cons, ← behind] at ends
      exact ends

theorem IsLayout.scan_append (layout : IsLayout gap) (position : Position) (more : List Char) :
    scan position (gap ++ more) = scan (position.after gap) more := by
  refine scan_skipped layout.skipped ?_ position more
  intro last found
  have ends := layout.ends
  rw [Option.mem_def.mp found, Option.map_some] at ends
  exact Option.some.inj ends

/-- The white space and the comments before the first token that a grammar sees, and each of these
tokens with those behind it. -/
def spaced : List Token → List Char × List (Token × List Char)
  | [] => ([], [])
  | token :: rest =>
      let (gap, entries) := spaced rest
      if token.isSkipped then (token.text ++ gap, entries) else ([], (token, gap) :: entries)

theorem spaced_skipped {token : Token} (skipped : token.isSkipped = true) (rest : List Token) :
    spaced (token :: rest) = (token.text ++ (spaced rest).1, (spaced rest).2) := by
  simp [spaced, skipped]

theorem spaced_seen {token : Token} (seen : token.isSkipped = false) (rest : List Token) :
    spaced (token :: rest) = ([], (token, (spaced rest).1) :: (spaced rest).2) := by
  simp [spaced, seen]

/-- The text of tokens with gaps behind them. -/
def written (entries : List (Token × List Char)) : List Char :=
  entries.flatMap fun entry => entry.1.text ++ entry.2

/-- A gap is laid out anew: one that is not empty in any way, and an empty one may stay. -/
def Refills (gap gap' : List Char) : Prop :=
  IsLayout gap' ∨ gap = [] ∧ gap' = []

instance (gap gap' : List Char) : Decidable (Refills gap gap') :=
  inferInstanceAs (Decidable (IsLayout gap' ∨ gap = [] ∧ gap' = []))

/-- The same tokens with their gaps laid out anew. A name right behind a full stop stays there. -/
inductive Respaced : List (Token × List Char) → List (Token × List Char) → Prop where
  | nil : Respaced [] []
  | cons {token : Token} {gap gap' : List Char} {entries entries' : List (Token × List Char)}
      (refills : Refills gap gap')
      (kept : token.kind = .dot → (∃ next ∈ entries.head?, next.1.kind = .functor) → gap = [] →
        gap' = [])
      (rest : Respaced entries entries') :
      Respaced ((token, gap) :: entries) ((token, gap') :: entries')

theorem respaced_cons_iff {token token' : Token} {gap gap' : List Char}
    {entries entries' : List (Token × List Char)} :
    Respaced ((token, gap) :: entries) ((token', gap') :: entries') ↔
      token' = token ∧ Refills gap gap' ∧
        (token.kind = .dot → (∃ next ∈ entries.head?, next.1.kind = .functor) → gap = [] →
          gap' = []) ∧ Respaced entries entries' := by
  constructor
  · intro respaced
    cases respaced with
    | cons refills kept rest => exact ⟨rfl, refills, kept, rest⟩
  · rintro ⟨rfl, refills, kept, rest⟩
    exact .cons refills kept rest

instance decidableRespaced :
    (entries entries' : List (Token × List Char)) → Decidable (Respaced entries entries')
  | [], [] => isTrue .nil
  | [], _ :: _ => isFalse nofun
  | _ :: _, [] => isFalse nofun
  | (_, _) :: entries, (_, _) :: entries' =>
      have := decidableRespaced entries entries'
      decidable_of_iff _ respaced_cons_iff.symm

/-- A text is another one laid out anew. -/
def Relaid (text text' : String) : Prop :=
  ∃ gap' entries', Refills (spaced (lex .start text.toList)).1 gap' ∧
    Respaced (spaced (lex .start text.toList)).2 entries' ∧
    text'.toList = gap' ++ written entries'

theorem written_spaced (tokens : List Token) :
    (spaced tokens).1 ++ written (spaced tokens).2 = textOf tokens := by
  induction tokens with
  | nil => rfl
  | cons token rest ih =>
    rw [textOf, List.flatMap_cons, ← textOf, ← ih]
    cases skipped : token.isSkipped with
    | true => rw [spaced_skipped skipped, List.append_assoc]
    | false => simp [spaced_seen skipped, written]

theorem scan_eq_spaced (tokens : List Token) :
    (tokens.filter fun token => !token.isSkipped) = (spaced tokens).2.map Prod.fst := by
  induction tokens with
  | nil => rfl
  | cons token rest ih =>
    cases skipped : token.isSkipped with
    | true => simp [spaced_skipped skipped, skipped, ih]
    | false => simp [spaced_seen skipped, skipped, ih]

/-- A text and the same one laid out anew agree up to a place where the other one has white space. -/
theorem Respaced.shared {entries entries' : List (Token × List Char)}
    (respaced : Respaced entries entries') :
    ∃ shared behind more, written entries = shared ++ behind ∧ written entries' = shared ++ more ∧
      Detached more ∧ ∀ first ∈ entries.head?, first.1.text <+: shared := by
  induction respaced with
  | nil => exact ⟨[], [], [], rfl, rfl, detached_nil, by simp⟩
  | @cons token gap gap' entries entries' refills kept rest ih =>
    rcases refills with layout | ⟨rfl, rfl⟩
    · refine ⟨token.text, gap ++ written entries, gap' ++ written entries', ?_, ?_, ?_, ?_⟩
      · simp [written]
      · simp [written]
      · exact layout.detached _
      · simp
    · obtain ⟨shared, behind, more, whole, whole', detached, -⟩ := ih
      refine ⟨token.text ++ shared, behind, more, ?_, ?_, detached, ?_⟩
      · simpa [written] using whole
      · simpa [written] using whole'
      · simp

/-- A token at another place. -/
structure Token.Like (token other : Token) : Prop where
  kind : other.kind = token.kind
  text : other.text = token.text
  terminated : other.terminated = token.terminated

/-- A name stands right behind a full stop. -/
def Token.Touches (dot : Token) (behind : List Token) : Prop :=
  ∃ next ∈ behind.head?, next.kind = .functor ∧ next.position.offset = dot.stop

/-- Tokens of a text and the same ones at other places, with names right behind the same full
stops. -/
inductive Likewise : List Token → List Token → Prop where
  | nil : Likewise [] []
  | cons {token other : Token} {tokens others : List Token} (like : token.Like other)
      (touches : token.kind = .dot → (token.Touches tokens ↔ other.Touches others))
      (rest : Likewise tokens others) : Likewise (token :: tokens) (other :: others)

theorem Refills.scan_append (refills : Refills gap gap') (position : Position) (more : List Char) :
    scan position (gap' ++ more) = scan (position.after gap') more := by
  rcases refills with layout | ⟨-, rfl⟩
  · exact layout.scan_append position more
  · rfl

theorem Refills.eq_nil (refills : Refills gap []) : gap = [] := by
  rcases refills with layout | ⟨same, -⟩
  · exact absurd rfl layout.nonempty
  · exact same

/-- The first token that a grammar sees stands behind the first gap. -/
theorem offset_spaced (position : Position) (text : List Char) :
    ∀ first ∈ (scan position text).head?,
      first.position.offset = position.offset + (spaced (lex position text)).1.length := by
  induction text using lexing generalizing position with
  | nil => simp [scan]
  | cons c rest ih =>
    intro first found
    rw [lex_cons]
    cases skipped : (firstToken position c rest).isSkipped with
    | true =>
      rw [scan_skip skipped] at found
      rw [spaced_skipped skipped, ih _ first found, offset_after, List.length_append,
        Nat.add_assoc]
      rfl
    | false =>
      rw [scan_see skipped] at found
      obtain rfl := Option.some.inj found
      rw [spaced_seen skipped]
      rfl

/-- A token stays the same where the text behind it is laid out anew. -/
theorem next_respaced {c : Char} {rest shared behind more : List Char}
    (formed : (firstToken position c rest).problem? = none)
    (seen : (firstToken position c rest).isSkipped = false) (whole : c :: rest = shared ++ behind)
    (inside : (Lexeme.next c rest).text <+: shared) (detached : Detached more) :
    ∃ others, shared ++ more = c :: others ∧
      (Lexeme.next c others).kind = (Lexeme.next c rest).kind ∧
      (Lexeme.next c others).text = (Lexeme.next c rest).text ∧
      (Lexeme.next c others).terminated = (Lexeme.next c rest).terminated := by
  have splits := Lexeme.splits_next c rest
  obtain ⟨known, complete⟩ := Token.complete formed
  cases shared with
  | nil => exact absurd (List.prefix_nil.mp inside) splits.some
  | cons d front =>
    obtain ⟨rfl, rfl⟩ := List.cons.inj whole
    have cut : Lexeme.next c (front ++ behind) = (Lexeme.next c front).followedBy behind :=
      Lexeme.next_fits known inside.length_le
    have kind : (Lexeme.next c front).kind = (Lexeme.next c (front ++ behind)).kind := by
      rw [cut, Lexeme.followedBy]
    have text : (Lexeme.next c front).text = (Lexeme.next c (front ++ behind)).text := by
      rw [cut, Lexeme.followedBy]
    have terminated : (Lexeme.next c front).terminated =
        (Lexeme.next c (front ++ behind)).terminated := by
      rw [cut, Lexeme.followedBy]
    have goesOn : Lexeme.next c (front ++ more) = (Lexeme.next c front).followedBy more := by
      refine Lexeme.next_followedBy detached ?_ (fun line => ?_) fun blank => ?_
      · rw [kind, terminated]
        exact ⟨known, complete⟩
      · rw [kind] at line
        have skipped : (firstToken position c (front ++ behind)).isSkipped = true := by
          simp [Token.isSkipped, firstToken, line, Lexeme.terminated_lineComment line, Kind.isTrivia]
        cases seen.symm.trans skipped
      · have skipped : (firstToken position c (front ++ behind)).isSkipped = true := by
          rw [firstToken, Lexeme.next_blank blank]
          rfl
        cases seen.symm.trans skipped
    refine ⟨front ++ more, rfl, ?_⟩
    rw [goesOn]
    exact ⟨kind, text, terminated⟩

/-- A name right behind a full stop stays there, and no other one gets there. -/
theorem touches_iff {dot other : Token} {tokens others : List Token}
    (refills : Refills gap gap') (kept : (∃ next ∈ tokens.head?, next.kind = .functor) → gap = [] →
      gap' = []) (likewise : Likewise tokens others)
    (place : ∀ next ∈ tokens.head?, next.position.offset = dot.stop + gap.length)
    (place' : ∀ next ∈ others.head?, next.position.offset = other.stop + gap'.length) :
    dot.Touches tokens ↔ other.Touches others := by
  cases likewise with
  | nil => simp [Token.Touches]
  | @cons next next' tokens others like' touches rest =>
    have offset := place next rfl
    have offset' := place' next' rfl
    have empty : next.kind = .functor → (gap.length = 0 ↔ gap'.length = 0) := by
      intro functor
      constructor
      · intro none
        rw [kept ⟨next, rfl, functor⟩ (List.length_eq_zero_iff.mp none)]
        rfl
      · intro none
        obtain rfl := List.length_eq_zero_iff.mp none
        rw [refills.eq_nil]
        rfl
    constructor
    · rintro ⟨_, found, functor, touch⟩
      obtain rfl := Option.some.inj found
      have none := (empty functor).mp (by omega)
      exact ⟨next', rfl, like'.kind.trans functor, by omega⟩
    · rintro ⟨_, found, functor, touch⟩
      obtain rfl := Option.some.inj found
      have functor := like'.kind.symm.trans functor
      have none := (empty functor).mpr (by omega)
      exact ⟨next, rfl, functor, by omega⟩

/-- A text laid out anew has the same tokens, and the first one stands at its front. -/
theorem Respaced.scan {text : List Char} {entries' : List (Token × List Char)}
    (respaced : Respaced (spaced (lex position text)).2 entries')
    (formed : ∀ token ∈ scan position text, token.problem? = none) (place : Position) :
    Likewise (scan position text) (scan place (written entries')) ∧
      ∀ first ∈ (scan place (written entries')).head?, first.position = place := by
  induction text using lexing generalizing position entries' place with
  | nil =>
    cases respaced
    exact ⟨.nil, by simp [Source.scan, written]⟩
  | cons c rest ih =>
    rw [lex_cons] at respaced
    cases skipped : (firstToken position c rest).isSkipped with
    | true =>
      rw [spaced_skipped skipped] at respaced
      rw [scan_skip skipped] at formed ⊢
      exact ih respaced formed place
    | false =>
      rw [scan_see skipped] at formed ⊢
      have whole := written_spaced (lex position (c :: rest))
      rw [textOf_lex, lex_cons, spaced_seen skipped, List.nil_append] at whole
      rw [spaced_seen skipped] at respaced
      obtain ⟨shared, behind, more, split, split', detached, inside⟩ := respaced.shared
      obtain ⟨others, begins, kind, text, terminated⟩ := next_respaced (formed _ List.mem_cons_self)
        skipped (whole.symm.trans split) (inside _ rfl) detached
      rw [← split'] at begins
      cases respaced with
      | @cons _ _ gap' _ entries' refills kept respaced =>
        have seen : (firstToken place c others).isSkipped = false := by
          rw [← skipped, Token.isSkipped, Token.isSkipped, firstToken, firstToken, kind, terminated]
        have left : (Lexeme.next c others).rest = gap' ++ written entries' := by
          refine Lexeme.rest_of_text ?_ text
          rw [← begins, ← List.append_assoc]
          rfl
        obtain ⟨likewise, front⟩ := ih respaced
          (fun token member => formed token (List.mem_cons_of_mem _ member))
          ((place.after (Lexeme.next c rest).text).after gap')
        rw [begins, scan_see seen, left, text, refills.scan_append]
        refine ⟨.cons ⟨kind, text, terminated⟩ (fun dot => ?_) likewise, ?_⟩
        · refine touches_iff refills (fun named => kept dot ?_) likewise ?_ ?_
          · rw [Source.scan, scan_eq_spaced, List.head?_map] at named
            obtain ⟨next, found, functor⟩ := named
            obtain ⟨entry, first, rfl⟩ := Option.map_eq_some_iff.mp found
            exact ⟨entry, first, functor⟩
          · intro next found
            rw [offset_spaced _ _ next found, offset_after]
            rfl
          · intro next found
            rw [front next found, offset_after, offset_after, Token.stop, firstToken, text]
        · intro first found
          obtain rfl := Option.some.inj found
          rfl

theorem Relaid.scan {text text' : String} (relaid : Relaid text text')
    (formed : ∀ token ∈ scan .start text.toList, token.problem? = none) :
    Likewise (scan .start text.toList) (scan .start text'.toList) := by
  obtain ⟨gap', entries', refills, respaced, whole⟩ := relaid
  rw [whole, refills.scan_append]
  exact (respaced.scan formed _).1

end AgentSpeak.Source
