import AgentSpeak.Proofs.Number.Spelling
import AgentSpeak.Proofs.Source.Cutting
import AgentSpeak.Proofs.Source.Orderly
import AgentSpeak.Proofs.Term.Survival

namespace AgentSpeak

open Source (Token Tokens Position Lexeme Problem ParseError)

namespace Text

theorem length_pieces (separator : Char) (text : List Char) :
    (pieces separator text).length = text.count separator + 1 := by
  induction text with
  | nil => rfl
  | cons c rest ih =>
    unfold pieces
    split
    next same => rw [List.length_cons, ih, same, List.count_cons_self]
    next other =>
      rw [List.count_cons_of_ne other, ← ih]
      cases found : pieces separator rest with
      | nil => exact absurd found (pieces_ne_nil separator rest)
      | cons piece others => rfl

/-- A text has one line more than line ends. -/
theorem length_lines (text : String) : (lines text).length = text.toList.count '\n' + 1 := by
  rw [lines, cut, List.length_map, length_pieces]

/-- Decimal digits, at least one. -/
def Digits (text : List Char) : Prop :=
  text ≠ [] ∧ ∀ c ∈ text, isDigit c = true

/-- A fraction or nothing: a point and digits. -/
def Fraction (text : List Char) : Prop :=
  text = [] ∨ ∃ digits, text = '.' :: digits ∧ Digits digits

/-- An exponent or nothing: a mark, a sign or none, and digits. -/
def Exponent (text : List Char) : Prop :=
  text = [] ∨ ∃ mark sign digits, text = mark :: (sign ++ digits) ∧ (mark = 'e' ∨ mark = 'E') ∧
    sign ∈ [[], ['+'], ['-']] ∧ Digits digits

/-- A text that denotes a number. -/
def Numeral (text : List Char) : Prop :=
  ∃ whole fraction exponent, text = whole ++ fraction ++ exponent ∧ Digits whole ∧
    Fraction fraction ∧ Exponent exponent

theorem digits_takeWhile {text : List Char} (some : text.takeWhile isDigit ≠ []) :
    Digits (text.takeWhile isDigit) :=
  ⟨some, fun _ member => (List.mem_takeWhile_imp member)⟩

end Text

namespace Source

/-- A position is exactly the place behind some text. -/
structure Position.Exact (position : Position) (before : List Char) : Prop where
  offset : position.offset = before.length
  line : position.line = before.count '\n' + 1
  column : position.column = (before.reverse.takeWhile (· != '\n')).length + 1

theorem Position.exact_start : Position.start.Exact [] :=
  ⟨rfl, rfl, rfl⟩

theorem Position.Exact.next {position : Position} {before : List Char} (exact : position.Exact before)
    (c : Char) : (position.next c).Exact (before ++ [c]) := by
  unfold Position.next
  split
  next same =>
    subst same
    constructor <;> simp [exact.offset, exact.line]
  next other =>
    constructor <;> simp [exact.offset, exact.line, exact.column, other]

theorem Position.Exact.after {position : Position} {before : List Char}
    (exact : position.Exact before) (text : List Char) :
    (position.after text).Exact (before ++ text) := by
  induction text generalizing position before with
  | nil => simpa [Position.after] using exact
  | cons c rest ih =>
    rw [List.append_cons]
    exact ih (exact.next c)

theorem Lexeme.fraction_fractionPart (text : List Char) : Text.Fraction (fractionPart text) := by
  unfold fractionPart
  split
  next c rest =>
    split
    next digit => exact .inr ⟨_, rfl, Text.digits_takeWhile (by simp [digit])⟩
    next => exact .inl rfl
  next => exact .inl rfl

theorem Lexeme.exponent_exponentPart (text : List Char) : Text.Exponent (exponentPart text) := by
  have signed : ∀ (mark : Char) (sign rest : List Char), mark = 'e' ∨ mark = 'E' →
      sign ∈ [[], ['+'], ['-']] →
        Text.Exponent (exponentOf mark sign ((rest.drop sign.length).takeWhile Text.isDigit)) := by
    intro mark sign rest marked listed
    unfold exponentOf
    split
    next => exact .inl rfl
    next some =>
      have digits := Text.digits_takeWhile (mt List.isEmpty_iff.mpr some)
      exact .inr ⟨mark, sign, _, rfl, marked, listed, digits⟩
  unfold exponentPart
  split
  next mark rest =>
    split
    next marked => exact signed mark _ rest marked (by split <;> simp)
    next => exact .inl rfl
  next => exact .inl rfl

/-- What is read as a number denotes one. -/
theorem Lexeme.numeral_next {c : Char} {rest : List Char} (number : (next c rest).kind = .number) :
    Text.Numeral (next c rest).text := by
  have names : ∀ kind ∈ nameKinds, kind ≠ .number := by decide
  have operators : ∀ entry ∈ Kind.operators, entry.2 ≠ .number := by decide
  refine next_cases (motive := fun lexeme => lexeme.kind = .number → Text.Numeral lexeme.text) c rest
    nofun ?_ ?_ nofun nofun ?_ ?_ number
  · intro digit _
    exact ⟨_, _, _, rfl, Text.digits_takeWhile (by simp [digit]), fraction_fractionPart _,
      exponent_exponentPart _⟩
  · exact fun _ number => absurd number (names _ (nameKind_mem _))
  · intro _ number
    rcases quote_kind rest with same | same <;> rw [same] at number <;> cases number
  · intro number
    rcases operator_kind c rest with same | ⟨entry, listed, same, -⟩
    · rw [same] at number
      cases number
    · exact absurd (same.symm.trans number) (operators entry listed)

/-- Tokens lie one behind the other over a whole text, each at its exact place, and numbers have the
text of a number. -/
structure Tiles (source : Tokens) (text : List Char) : Prop where
  whole : textOf source.tokens = text
  some : ∀ token ∈ source.tokens, token.text ≠ []
  inside : ∀ token ∈ source.tokens, token.kind ≠ .endOfInput
  ended : source.finish.kind = .endOfInput ∧ source.finish.text = []
  exact : ∀ before token after, source.tokens ++ [source.finish] = before ++ token :: after →
    token.position.Exact (textOf before)
  numerals : ∀ token ∈ source.tokens, token.kind = .number → Text.Numeral token.text

variable {position : Position} {text : List Char} {token : Token}

theorem exists_firstToken (member : token ∈ lex position text) :
    ∃ place c rest, token = firstToken place c rest := by
  induction text using lexing generalizing position with
  | nil => cases member
  | cons c rest ih =>
    rw [lex_cons, List.mem_cons] at member
    rcases member with rfl | later
    · exact ⟨position, c, rest, rfl⟩
    · exact ih later

theorem tokenize_tiles (text : String) : Tiles (tokenize text) text.toList := by
  rw [tokenize_eq]
  refine ⟨textOf_lex _ _, ?_, fun token => no_endOfInput, ⟨rfl, rfl⟩, ?_, ?_⟩
  · intro token member
    obtain ⟨place, c, rest, rfl⟩ := exists_firstToken member
    exact (Lexeme.splits_next c rest).some
  · intro before token after split
    rcases List.eq_nil_or_concat after with rfl | ⟨init, last, rfl⟩
    · obtain ⟨rfl, last⟩ := List.append_inj' split rfl
      obtain rfl : finishOf text = token := by simpa using last
      rw [textOf_lex]
      exact Position.exact_start.after text.toList
    · rw [List.concat_eq_append, ← List.cons_append, ← List.append_assoc] at split
      obtain ⟨first, -⟩ := List.append_inj' split rfl
      obtain ⟨rest, -, begins⟩ := lex_append first
      rw [position_of_lex begins.symm]
      exact Position.exact_start.after (textOf before)
  · intro token member number
    obtain ⟨place, c, rest, rfl⟩ := exists_firstToken member
    exact Lexeme.numeral_next number

/-- An error is at a token of a text or at its end, and tells the line of the text that lies there.
Reading ends at once only at an integer of the text that has too many digits. -/
structure ParseError.Located (error : ParseError) (text : String) : Prop where
  place : ∃ token ∈ (tokenize text).tokens ++ [(tokenize text).finish],
    error.line = token.position.line ∧ error.column = token.position.column
  sourceLine : ∃ index, error.line = index + 1 ∧ (Text.lines text)[index]? = some error.sourceLine
  legible : error.isFatal = true → error.token ∈ (tokenize text).tokens ∧
    (∀ c ∈ error.token.text, Text.isDigit c = true) ∧ Text.digitLimit < error.token.text.length

/-- Reading gives a value or an error that is located. -/
def Answers {α : Type} (result : Except ParseError α) (text : String) : Prop :=
  (∃ value, result = .ok value) ∨ ∃ error, result = .error error ∧ error.Located text

theorem located_ofProblem {text : String} {problem : Problem}
    (own : problem.token ∈ scan .start text.toList ∨ problem.token = finishOf text) :
    (ParseError.ofProblem (Text.lines text) problem).Located text := by
  have listed : problem.token ∈ (tokenize text).tokens ++ [(tokenize text).finish] := by
    rw [tokenize_eq]
    rcases own with inside | last
    · exact List.mem_append_left _ (List.mem_of_mem_filter inside)
    · simp [last]
  have legible : problem.isFatal = true → problem.token ∈ (tokenize text).tokens ∧
      (∀ c ∈ problem.token.text, Text.isDigit c = true) ∧
        Text.digitLimit < problem.token.text.length := by
    intro fatal
    have long := Number.read?_eq_none_iff.mp (problem.unread fatal)
    refine ⟨(List.mem_append.mp listed).resolve_right fun last => ?_, long⟩
    rw [List.mem_singleton.mp last, (tokenize_tiles text).ended.2] at long
    exact absurd long.2 (Nat.not_lt_zero _)
  refine ⟨⟨problem.token, listed, rfl, rfl⟩, ?_, legible⟩
  obtain ⟨before, after, split⟩ := List.append_of_mem listed
  have exact := (tokenize_tiles text).exact before problem.token after split
  have front : textOf before <+: text.toList := by
    have all := congrArg textOf split
    simp only [textOf, List.flatMap_append, List.flatMap_cons, List.flatMap_nil,
      (tokenize_tiles text).ended.2, List.append_nil] at all
    rw [← (tokenize_tiles text).whole]
    exact ⟨_, all.symm⟩
  have inside : (textOf before).count '\n' < (Text.lines text).length := by
    rw [Text.length_lines]
    exact Nat.lt_succ_of_le (front.sublist.count_le '\n')
  refine ⟨(textOf before).count '\n', exact.line, ?_⟩
  simp [ParseError.ofProblem, exact.line, List.getElem?_eq_getElem inside]

theorem reach_subset (tokens : List Token) : reach tokens ⊆ tokens := by
  induction tokens with
  | nil => exact List.Subset.refl []
  | cons token tokens ih =>
    rw [reach]
    split
    · simp
    · exact List.cons_subset_cons token ih

/-- What is near a run lies ahead of it or at the end of the input. -/
theorem Near.ahead {used : List Token} {before after : Cursor} (near : Near used after token)
    (passes : Passes used before after) : token ∈ before.upcoming ∨ token = before.finish := by
  rw [passes.split, ← passes.finish, List.mem_append]
  rcases near with inside | ahead | ended
  · exact .inl (.inl inside)
  · exact .inl (.inr (reach_subset _ ahead))
  · exact .inr ended

namespace Parser

variable {α : Type} {allowed : Token → Prop}

instance : Orderly allowed finish := by
  unfold finish
  infer_instance

theorem sound_start (text : String) : (start text).Sound := by
  rw [start_eq]
  exact ⟨rfl, fun _ => spelled_scan⟩

/-- An orderly parser reads a whole text or has its problem at a place of the text. -/
theorem answers_read (parser : Parser α) [Orderly (fun _ => False) parser] (text : String) :
    Answers (parser.read text) text := by
  have orderly : Orderly (fun _ => False) (do let value ← parser; finish; return value) :=
    inferInstance
  obtain ⟨used, passes, near⟩ := orderly.orderlyAt (start text) (sound_start text)
  unfold Parser.read
  split
  next value after ran => exact .inl ⟨value, rfl⟩
  next problem after ran =>
    rw [ran] at passes near
    have ahead := ((near problem rfl).resolve_left id).ahead passes
    rw [start_eq] at ahead
    exact .inr ⟨_, rfl, located_ofProblem ahead⟩

end Parser

end Source

end AgentSpeak
