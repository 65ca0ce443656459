import AgentSpeak.Proofs.Source.Lexing

namespace AgentSpeak.Source

/-- A well-formed token that is neither a comment nor a full stop. -/
structure Token.Tidy (token : Token) : Prop where
  formed : token.problem? = none
  line : token.kind ≠ .lineComment
  block : token.kind ≠ .blockComment
  dot : token.kind ≠ .dot

/-- A text of tidy tokens. -/
def Tidy (text : List Char) : Prop :=
  ∀ position, ∀ token ∈ visible position text, token.Tidy

variable {c : Char} {kind : Kind} {text more rest : List Char} {position : Position}

theorem Token.Tidy.closed {token : Token} (tidy : token.Tidy) (more : List Char) :
    token.Closed more :=
  ⟨tidy.formed, fun line => absurd line tidy.line⟩

theorem Tidy.visible_append (tidy : Tidy text) (detached : Detached more) (position : Position) :
    visible position (text ++ more) =
      visible position text ++ visible (position.after text) more :=
  Source.visible_append detached fun token member => (tidy position token member).closed more

theorem Tidy.scan_append (tidy : Tidy text) (detached : Detached more) (position : Position) :
    scan position (text ++ more) = scan position text ++ scan (position.after text) more := by
  rw [scan_eq_filter, tidy.visible_append detached, List.filter_append, ← scan_eq_filter,
    ← scan_eq_filter]

theorem Tidy.scan_length_le (tidy : Tidy text) (detached : Detached more) (position : Position) :
    (scan (position.after text) more).length ≤ (scan position (text ++ more)).length := by
  rw [tidy.scan_append detached, List.length_append]
  exact Nat.le_add_left _ _

theorem Tidy.no_dot (tidy : Tidy text) {token : Token} (member : token ∈ scan position text) :
    token.kind ≠ .dot := by
  rw [scan_eq_filter] at member
  exact (tidy position token (List.mem_of_mem_filter member)).dot

theorem tidy_nil : Tidy [] := by
  simp [Tidy, visible]

theorem Tidy.append (first : Tidy text) (second : Tidy more) (detached : Detached more) :
    Tidy (text ++ more) := by
  intro position token member
  rw [first.visible_append detached, List.mem_append] at member
  exact member.elim (first position token) (second _ token)

theorem Tidy.blank (tidy : Tidy text) (blank : Text.isBlank c = true) : Tidy (c :: text) := by
  intro position token member
  rw [visible_blank blank] at member
  exact tidy _ token member

/-- A text that begins with a token of its own, whatever follows it. -/
theorem visible_token {token : List Char} (next : Lexeme.next c rest = ⟨kind, token, more, true⟩)
    (shown : kind ≠ .whitespace) (position : Position) :
    visible position (c :: rest) =
      ⟨kind, token, position, true⟩ :: visible (position.after token) more := by
  rw [visible_cons, firstToken, next]
  simp [Token.isVisible, shown]

/-- A text that begins with a token that a grammar sees. -/
theorem scan_token {token : List Char} (next : Lexeme.next c rest = ⟨kind, token, more, true⟩)
    (seen : kind.isTrivia = false) (position : Position) :
    scan position (c :: rest) =
      ⟨kind, token, position, true⟩ :: scan (position.after token) more := by
  have shown : kind ≠ .whitespace := by
    rintro rfl
    cases seen
  rw [scan_eq_filter, visible_token next shown, List.filter_cons_of_pos
    (by simp [Token.isSkipped, seen]), ← scan_eq_filter]

theorem complete_formed (known : kind ≠ .unknown) (text : List Char) (position : Position) :
    (Token.mk kind text position true).problem? = none := by
  unfold Token.problem?
  cases kind <;> simp_all

theorem Tidy.token {token : List Char} (tidy : Tidy more)
    (next : Lexeme.next c rest = ⟨kind, token, more, true⟩)
    (kinds : kind ∉ [.whitespace, .lineComment, .blockComment, .dot, .unknown]) :
    Tidy (c :: rest) := by
  simp only [List.mem_cons, List.not_mem_nil, or_false, not_or] at kinds
  obtain ⟨shown, line, block, dot, known⟩ := kinds
  intro position token' member
  rw [visible_token next shown, List.mem_cons] at member
  rcases member with rfl | later
  · exact ⟨complete_formed known token position, line, block, dot⟩
  · exact tidy _ token' later

/-- The punctuation that nothing goes on with. -/
def punctuation : List (Char × Kind) :=
  [('(', .openParen), (')', .closeParen), ('[', .openBracket), (']', .closeBracket),
    ('\x7b', .openBrace), ('\x7d', .closeBrace), ('&', .ampersand), ('|', .bar),
    (';', .semicolon), (',', .comma), ('?', .question), ('@', .label)]

theorem next_punctuation (listed : (c, kind) ∈ punctuation) (rest : List Char) :
    Lexeme.next c rest = ⟨kind, [c], rest, true⟩ := by
  simp only [punctuation, List.mem_cons, Prod.mk.injEq, List.not_mem_nil, or_false] at listed
  rcases listed with ⟨rfl, rfl⟩ | ⟨rfl, rfl⟩ | ⟨rfl, rfl⟩ | ⟨rfl, rfl⟩ | ⟨rfl, rfl⟩ | ⟨rfl, rfl⟩ |
    ⟨rfl, rfl⟩ | ⟨rfl, rfl⟩ | ⟨rfl, rfl⟩ | ⟨rfl, rfl⟩ | ⟨rfl, rfl⟩ | ⟨rfl, rfl⟩ <;> rfl

theorem Tidy.punctuation (tidy : Tidy text) (listed : (c, kind) ∈ punctuation) :
    Tidy (c :: text) := by
  have kinds : ∀ entry ∈ Source.punctuation,
      entry.2 ∉ [Kind.whitespace, .lineComment, .blockComment, .dot, .unknown] := by decide
  exact tidy.token (next_punctuation listed text) (kinds _ listed)

/-- A character that ends names, numbers and operators before it. -/
def separates (c : Char) : Bool :=
  !Lexeme.isNameRest c && !Text.isDigit c && !(['-', '!', '+', '*', '=', '/', '.'].contains c)

theorem detached_cons (separates : separates c = true) (rest : List Char) :
    Detached (c :: rest) := by
  intro d head
  obtain rfl : c = d := by simpa using head
  simp only [Source.separates, Bool.and_eq_true, Bool.not_eq_true', List.contains_eq_mem,
    decide_eq_false_iff_not, List.mem_cons, not_or] at separates
  obtain ⟨⟨name, digit⟩, signs⟩ := separates
  refine ⟨name, digit, by simp [signs], fun point => absurd point signs.2.2.2.2.2.2.1⟩

/-- A letter or an underscore is neither blank nor a digit. -/
theorem nameStart_bounds (start : Lexeme.isNameStart c = true) :
    Text.isBlank c = false ∧ Text.isDigit c = false := by
  have bounds : 65 ≤ c.toNat ∧ c.toNat ≤ 122 := by
    change (decide (c.val ≥ 'A'.val ∧ c.val ≤ 'Z'.val) ||
      (decide (c.val ≥ 'a'.val) && decide (c.val ≤ 'z'.val)) || c == '_') = true at start
    simp only [Bool.or_eq_true, Bool.and_eq_true, decide_eq_true_eq, beq_iff_eq] at start
    rcases start with (upper | lower) | rfl
    · exact ⟨upper.1, Nat.le_trans upper.2 (by decide)⟩
    · exact ⟨Nat.le_trans (by decide) lower.1, lower.2⟩
    · decide
  constructor
  · simp only [Text.isBlank, Text.blankRanges, List.any_cons, List.any_nil, Bool.or_false,
      Bool.or_eq_false_iff, Bool.and_eq_false_iff, decide_eq_false_iff_not]
    omega
  · have starts : ∀ start ∈ Text.zeros, start = 48 ∨ 1632 ≤ start := by decide
    have none : Text.zeros.find? (fun start => start ≤ c.toNat && c.toNat ≤ start + 9) = none := by
      refine List.find?_eq_none.mpr fun start member => ?_
      rcases starts start member with rfl | later <;> simp only [Bool.and_eq_true,
        decide_eq_true_eq] <;> omega
    rw [Text.isDigit, Text.digit?, none]
    rfl

theorem next_word (word : Lexeme.isNameStart c = true) (name : rest.all Lexeme.isNameRest = true) :
    Lexeme.next c rest = ⟨Lexeme.nameKind (c :: rest), c :: rest, [], true⟩ := by
  obtain ⟨blank, digit⟩ := nameStart_bounds word
  have first := Lexeme.isNameRest_of_isNameStart word
  have all : ∀ d ∈ c :: rest, Lexeme.isNameRest d = true := by
    simpa [first] using name
  have taken := List.takeWhile_eq_self_iff.mpr all
  have dropped := List.dropWhile_eq_nil_iff.mpr all
  simp [Lexeme.next, blank, digit, word, Lexeme.name, taken, dropped]

theorem nameKind_tidy (text : List Char) :
    Lexeme.nameKind text ∉ [Kind.whitespace, .lineComment, .blockComment, .dot, .unknown] := by
  have kinds : ∀ kind ∈ Lexeme.nameKinds,
      kind ∉ [Kind.whitespace, .lineComment, .blockComment, .dot, .unknown] := by decide
  exact kinds _ (Lexeme.nameKind_mem text)

theorem tidy_word (word : Lexeme.isNameStart c = true) (name : rest.all Lexeme.isNameRest = true) :
    Tidy (c :: rest) :=
  tidy_nil.token (next_word word name) (nameKind_tidy _)

theorem next_minus (other : text.head? ≠ some '+') :
    Lexeme.next '-' text = ⟨.minus, ['-'], text, true⟩ := by
  cases text with
  | nil => rfl
  | cons c rest =>
    have different : ('+' == c) = false :=
      beq_eq_false_iff_ne.mpr fun same => other (congrArg some same.symm)
    have found : (Kind.operators.find? fun entry =>
        entry.1.toList.isPrefixOf ('-' :: c :: rest)) =
        match '+' == c && true with
        | true => some ("-+", .minusPlus)
        | false => some ("-", .minus) := rfl
    show Lexeme.operator '-' (c :: rest) = _
    rw [Lexeme.operator, found, different]
    rfl

/-- A tidy text that a minus sign can stand before. -/
structure Neat (text : List Char) : Prop where
  tidy : Tidy text
  nonempty : text ≠ []
  noPlus : text.head? ≠ some '+'

theorem Neat.minus (neat : Neat text) : Neat ('-' :: text) :=
  ⟨neat.tidy.token (next_minus neat.noPlus) (by decide), by simp, by simp⟩

theorem detached_space (rest : List Char) : Detached (' ' :: rest) :=
  detached_cons (by decide) rest

theorem Tidy.space (tidy : Tidy text) : Tidy (' ' :: text) :=
  tidy.blank (by decide)

theorem Neat.append (neat : Neat text) (tidy : Tidy more) (detached : Detached more) :
    Neat (text ++ more) := by
  refine ⟨neat.tidy.append tidy detached, by simp [neat.nonempty], ?_⟩
  rw [List.head?_append_of_ne_nil _ neat.nonempty]
  exact neat.noPlus

/-- Two neat texts with a tidy one between them, set off by spaces. -/
theorem Neat.between {middle second : List Char} (neat : Neat text) (tidy : Tidy middle)
    (neat' : Neat second) : Neat (text ++ ' ' :: (middle ++ ' ' :: second)) :=
  neat.append (tidy.append neat'.tidy.space (detached_space second)).space (detached_space _)

theorem scan_blank (blank : Text.isBlank c = true) (position : Position) (text : List Char) :
    scan position (c :: text) = scan (position.next c) text := by
  rw [scan_eq_filter, visible_blank blank, ← scan_eq_filter]

theorem punctuation_formed (listed : (c, kind) ∈ punctuation) (text : List Char)
    (position : Position) : (Token.mk kind text position true).problem? = none := by
  have kinds : ∀ entry ∈ punctuation, entry.2 ≠ .unknown := by decide
  exact complete_formed (kinds _ listed) text position

theorem scan_punctuation (listed : (c, kind) ∈ punctuation) (position : Position)
    (text : List Char) :
    scan position (c :: text) = ⟨kind, [c], position, true⟩ :: scan (position.next c) text := by
  have kinds : ∀ entry ∈ punctuation, entry.2.isTrivia = false := by decide
  exact scan_token (next_punctuation listed text) (kinds _ listed) position

/-- A tidy text of one token, set off by spaces. -/
theorem scan_between {middle : List Char} (tidy : Tidy middle)
    (single : ∀ position, visible position middle = [⟨kind, middle, position, true⟩])
    (shown : kind.isTrivia = false) (position : Position) (text : List Char) :
    scan position (' ' :: (middle ++ ' ' :: text)) = ⟨kind, middle, position.next ' ', true⟩ ::
      scan (position.after (' ' :: (middle ++ [' ']))) text := by
  have token : scan (position.next ' ') middle = [⟨kind, middle, position.next ' ', true⟩] := by
    rw [scan_eq_filter, single, List.filter_cons_of_pos (by simp [Token.isSkipped, shown])]
    rfl
  rw [scan_blank (by decide), tidy.scan_append (detached_space text), token,
    scan_blank (by decide), ← List.cons_append, Position.after_append]
  rfl

/-- The first token of a tidy text that begins with no white space. -/
theorem Tidy.scan_first (tidy : Tidy (c :: rest)) (shown : Text.isBlank c = false)
    (position : Position) : ∃ others, scan position (c :: rest) =
      firstToken position c rest :: others := by
  have solid : (firstToken position c rest).kind ≠ .whitespace := by
    intro kind
    rw [(Lexeme.kindOf_next c rest).blank kind] at shown
    cases shown
  have visible : (firstToken position c rest).isVisible = true := by
    simp [Token.isVisible, solid]
  have token := tidy position (firstToken position c rest) (by simp [visible_cons, visible])
  have seen : (firstToken position c rest).kind.isTrivia = false := by
    have line := token.line
    have block := token.block
    cases kind : (firstToken position c rest).kind <;> simp_all [Kind.isTrivia]
  rw [scan_eq_filter, visible_cons, visible]
  exact ⟨_, by simp [Token.isSkipped, seen]; rfl⟩

end AgentSpeak.Source
