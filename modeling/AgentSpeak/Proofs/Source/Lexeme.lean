import AgentSpeak.Source.Lexer
import Mathlib.Data.List.Find
import Mathlib.Data.List.Infix
import Mathlib.Data.List.TakeWhile

namespace AgentSpeak.Source

/-- A text that carries on no token before it: it begins with none of the characters that names,
numbers, comments and longer operators go on with. -/
def Detached (text : List Char) : Prop :=
  ∀ c ∈ text.head?, Lexeme.isNameRest c = false ∧ Text.isDigit c = false ∧
    c ∉ ['-', '!', '+', '*', '=', '/'] ∧ (c = '.' → ∀ d ∈ text.tail.head?, Text.isDigit d = false)

theorem detached_nil : Detached [] := by
  simp [Detached]

theorem Detached.ends {text : List Char} (detached : Detached text) :
    ∀ c ∈ text.head?, c ∉ ['-', '!', '+', '*', '=', '/'] :=
  fun c head => (detached c head).2.2.1

namespace Lexeme

variable {text rest behind : List Char} {c : Char}

theorem fractionPart_isPrefix (text : List Char) : fractionPart text <+: text := by
  unfold fractionPart
  split
  next c rest =>
    split
    · exact List.cons_prefix_cons.mpr ⟨rfl, List.takeWhile_prefix _⟩
    · exact List.nil_prefix
  next => exact List.nil_prefix

theorem exponentPart_isPrefix (text : List Char) : exponentPart text <+: text := by
  have signed : ∀ mark sign rest, sign <+: rest →
      (if ((rest.drop sign.length).takeWhile Text.isDigit).isEmpty then []
        else mark :: (sign ++ (rest.drop sign.length).takeWhile Text.isDigit)) <+:
          mark :: rest := by
    rintro mark sign rest ⟨more, rfl⟩
    split
    · exact List.nil_prefix
    · rw [List.drop_left]
      exact List.cons_prefix_cons.mpr ⟨rfl, (List.prefix_append_right_inj sign).mpr
        (List.takeWhile_prefix _)⟩
  unfold exponentPart
  split
  next mark rest =>
    split
    · dsimp only
      split
      · exact signed _ _ _ ⟨_, rfl⟩
      · exact signed _ _ _ ⟨_, rfl⟩
      · exact signed _ _ _ List.nil_prefix
    · exact List.nil_prefix
  next => exact List.nil_prefix

theorem commentTail_split (text : List Char) :
    (commentTail text).1 ++ (commentTail text).2.1 = text := by
  fun_induction commentTail text with
  | case1 => rfl
  | case2 rest => rfl
  | case3 c rest notEnd inside behind terminated found ih =>
    rw [found] at ih
    simpa using ih

theorem stringTail?_split {inside : List Char} {terminated : Bool}
    (found : stringTail? text = some (inside, behind, terminated)) : inside ++ behind = text := by
  fun_induction stringTail? text generalizing inside behind terminated with
  | case1 =>
    cases found
    rfl
  | case2 rest =>
    cases found
    rfl
  | case3 rest =>
    cases found
    rfl
  | case4 => cases found
  | case5 => cases found
  | case6 c rest notEnd ih =>
    obtain ⟨⟨inside', behind', terminated'⟩, inner, same⟩ := Option.map_eq_some_iff.mp found
    cases same
    simpa using ih inner
  | case7 c rest _ _ _ _ ih =>
    obtain ⟨⟨inside', behind', terminated'⟩, inner, same⟩ := Option.map_eq_some_iff.mp found
    cases same
    simpa using ih inner

/-- A token is a text, none of it is empty, and what follows it makes up the rest. -/
structure Splits (lexeme : Lexeme) (text : List Char) : Prop where
  whole : lexeme.text ++ lexeme.rest = text
  some : lexeme.text ≠ []

theorem Splits.shorter {lexeme : Lexeme} (splits : lexeme.Splits text) :
    lexeme.rest.length < text.length := by
  rw [← splits.whole, List.length_append]
  have := List.length_pos_iff.mpr splits.some
  omega

theorem splits_run {kind : Kind} {condition : Char → Bool} (first : condition c = true) :
    (run kind condition (c :: rest)).Splits (c :: rest) := by
  refine ⟨List.takeWhile_append_dropWhile, ?_⟩
  simp [run, first]

theorem splits_number (digit : Text.isDigit c = true) :
    (number (c :: rest)).Splits (c :: rest) := by
  have fraction := List.prefix_iff_eq_append.mp
    (fractionPart_isPrefix ((c :: rest).dropWhile Text.isDigit))
  have exponent := List.prefix_iff_eq_append.mp (exponentPart_isPrefix
    (((c :: rest).dropWhile Text.isDigit).drop
      (fractionPart ((c :: rest).dropWhile Text.isDigit)).length))
  constructor
  · simp only [number, List.append_assoc, exponent, fraction]
    exact List.takeWhile_append_dropWhile
  · simp [number, digit]

theorem splits_operator (c : Char) (rest : List Char) : (operator c rest).Splits (c :: rest) := by
  unfold operator
  split
  next entry found =>
    have fits : entry.1.toList.isPrefixOf (c :: rest) = true := by
      simpa using List.find?_some found
    have starts := List.isPrefixOf_iff_prefix.mp fits
    refine ⟨?_, ?_⟩
    · show entry.1.toList ++ List.drop entry.1.length (c :: rest) = c :: rest
      rw [← String.length_toList]
      exact List.prefix_iff_eq_append.mp starts
    · have listed : ∀ entry ∈ Kind.operators, entry.1.toList ≠ [] := by decide
      exact listed entry (List.mem_of_find?_eq_some found)
  next => exact ⟨rfl, by simp⟩

theorem splits_quote (rest : List Char) : (quote rest).Splits ('"' :: rest) := by
  unfold quote
  split
  next inside behind terminated found =>
    exact ⟨congrArg _ (stringTail?_split found), by simp⟩
  next => exact ⟨rfl, by simp⟩

/-- The ways in which a token begins. -/
theorem next_cases {motive : Lexeme → Prop} (c : Char) (rest : List Char)
    (whitespace : Text.isBlank c = true → motive (run .whitespace Text.isBlank (c :: rest)))
    (number : Text.isDigit c = true → motive (number (c :: rest)))
    (name : isNameStart c = true → motive (name (c :: rest)))
    (line : c = '#' ∨ c = '/' ∧ rest.head? = some '/' →
      motive (run .lineComment (· != '\n') (c :: rest)))
    (block : ∀ inside, c :: rest = '/' :: '*' :: inside → motive ⟨.blockComment,
      '/' :: '*' :: (commentTail inside).1, (commentTail inside).2.1, (commentTail inside).2.2⟩)
    (quote : c = '"' → motive (quote rest)) (operator : motive (operator c rest)) :
    motive (next c rest) := by
  unfold next
  split
  next isBlank => exact whitespace isBlank
  split
  next isDigit => exact number isDigit
  split
  next isStart => exact name isStart
  split
  next => exact line (.inl rfl)
  next => exact line (.inr ⟨rfl, rfl⟩)
  next inside _ _ _ => exact block inside rfl
  next => exact quote rfl
  next => exact operator

theorem next_blank (blank : Text.isBlank c = true) (rest : List Char) :
    next c rest = run .whitespace Text.isBlank (c :: rest) := by
  unfold next
  rw [if_pos blank]

theorem isNameRest_of_isNameStart (start : isNameStart c = true) : isNameRest c = true := by
  simp only [isNameStart, isNameRest, Bool.or_eq_true, Char.isAlphanum] at start ⊢
  exact start.imp .inl id

theorem splits_next (c : Char) (rest : List Char) : (next c rest).Splits (c :: rest) := by
  refine next_cases (motive := fun lexeme => lexeme.Splits (c :: rest)) c rest splits_run
    splits_number ?_ ?_ ?_ ?_ (splits_operator c rest)
  · intro start
    show (run (nameKind _) isNameRest (c :: rest)).Splits _
    exact splits_run (isNameRest_of_isNameStart start)
  · rintro (rfl | ⟨rfl, -⟩) <;> exact splits_run (by decide)
  · rintro inside whole
    rw [whole]
    exact ⟨congrArg (fun text => '/' :: '*' :: text) (commentTail_split inside), by simp⟩
  · rintro rfl
    exact splits_quote rest

theorem rest_of_text {token : List Char} (begins : token ++ behind = c :: rest)
    (same : (next c rest).text = token) : (next c rest).rest = behind := by
  have whole := (splits_next c rest).whole
  rw [← begins, same] at whole
  exact List.append_cancel_left whole

/-- The kinds of names. -/
def nameKinds : List Kind :=
  [.wildcard, .variableName, .functor] ++ Kind.keywords.map Prod.snd

theorem nameKind_mem (text : List Char) : nameKind text ∈ nameKinds := by
  have keywords : ∀ keyword ∈ Kind.keywords, keyword.2 ∈ nameKinds := by decide
  unfold nameKind
  split
  · decide
  · split
    next keyword found => exact keywords keyword (List.mem_of_find?_eq_some found)
    next =>
      split
      · split <;> decide
      · decide

theorem operator_kind (c : Char) (rest : List Char) :
    (operator c rest).kind = .unknown ∨
      ∃ entry ∈ Kind.operators,
        (operator c rest).kind = entry.2 ∧ entry.1.toList.head? = some c := by
  unfold operator
  split
  next entry found =>
    have fits : entry.1.toList.isPrefixOf (c :: rest) = true := by
      simpa using List.find?_some found
    have listed := List.mem_of_find?_eq_some found
    have some : ∀ entry ∈ Kind.operators, entry.1.toList ≠ [] := by decide
    refine .inr ⟨entry, listed, rfl, ?_⟩
    cases text : entry.1.toList with
    | nil => exact absurd text (some entry listed)
    | cons d tail =>
      rw [text, List.isPrefixOf, Bool.and_eq_true] at fits
      rw [List.head?_cons, beq_iff_eq.mp fits.1]
  next => exact .inl rfl

theorem quote_kind (rest : List Char) :
    (quote rest).kind = .string ∨ (quote rest).kind = .unknown := by
  unfold quote
  split
  · exact .inl rfl
  · exact .inr rfl

/-- Only names have the kinds of names. -/
theorem next_of_mem_nameKinds (listed : (next c rest).kind ∈ nameKinds) :
    isNameStart c = true ∧ next c rest = name (c :: rest) := by
  have operators : ∀ entry ∈ Kind.operators, entry.2 ∉ nameKinds := by decide
  refine next_cases (motive := fun lexeme => lexeme.kind ∈ nameKinds →
    isNameStart c = true ∧ lexeme = name (c :: rest)) c rest ?_ ?_ ?_ ?_ ?_ ?_ ?_ listed
  · exact fun _ listed => absurd listed (show Kind.whitespace ∉ nameKinds by decide)
  · exact fun _ listed => absurd listed (show Kind.number ∉ nameKinds by decide)
  · exact fun start _ => ⟨start, rfl⟩
  · exact fun _ listed => absurd listed (show Kind.lineComment ∉ nameKinds by decide)
  · exact fun _ _ listed => absurd listed (show Kind.blockComment ∉ nameKinds by decide)
  · intro _ listed
    rcases quote_kind rest with same | same <;> rw [same] at listed <;>
      exact absurd listed (by decide)
  · intro listed
    rcases operator_kind c rest with same | ⟨entry, member, same, -⟩ <;> rw [same] at listed
    · exact absurd listed (by decide)
    · exact absurd listed (operators entry member)

/-- What the kind of a token says about its first character. -/
structure KindOf (kind : Kind) (c : Char) : Prop where
  known : kind ≠ .endOfInput
  blank : kind = .whitespace → Text.isBlank c = true
  parenthesis : kind = .openParen → c = '('

theorem kindOf_next (c : Char) (rest : List Char) : KindOf (next c rest).kind c := by
  have names : ∀ kind ∈ nameKinds, kind ≠ .endOfInput ∧ kind ≠ .whitespace ∧ kind ≠ .openParen := by
    decide
  have operators : ∀ entry ∈ Kind.operators, entry.2 ≠ .endOfInput ∧ entry.2 ≠ .whitespace ∧
      (entry.2 = .openParen → entry.1.toList.head? = some '(') := by decide
  refine next_cases (motive := fun lexeme => KindOf lexeme.kind c) c rest ?_ ?_ ?_ ?_ ?_ ?_ ?_
  · exact fun blank => ⟨nofun, fun _ => blank, nofun⟩
  · exact fun _ => ⟨nofun, nofun, nofun⟩
  · intro _
    obtain ⟨known, blank, parenthesis⟩ := names _ (nameKind_mem ((c :: rest).takeWhile isNameRest))
    exact ⟨known, fun same => absurd same blank, fun same => absurd same parenthesis⟩
  · exact fun _ => ⟨nofun, nofun, nofun⟩
  · exact fun _ _ => ⟨nofun, nofun, nofun⟩
  · intro _
    rcases quote_kind rest with same | same <;> rw [same] <;> exact ⟨nofun, nofun, nofun⟩
  · rcases operator_kind c rest with same | ⟨entry, listed, same, first⟩
    · rw [same]
      exact ⟨nofun, nofun, nofun⟩
    · obtain ⟨known, blank, parenthesis⟩ := operators entry listed
      rw [same]
      refine ⟨known, fun same => absurd same blank, fun same => ?_⟩
      have both := first.symm.trans (parenthesis same)
      exact Option.some.inj both

/-- A token with more text behind it. -/
def followedBy (lexeme : Lexeme) (more : List Char) : Lexeme :=
  { lexeme with rest := lexeme.rest ++ more }

/-- A run of characters stops at its end. -/
def Stops (condition : Char → Bool) (text more : List Char) : Prop :=
  text.dropWhile condition ≠ [] ∨ ∀ c ∈ more.head?, condition c = false

section Followed

variable {condition : Char → Bool} {more : List Char}

theorem takeWhile_stops (stops : Stops condition text more) :
    (text ++ more).takeWhile condition = text.takeWhile condition ∧
      (text ++ more).dropWhile condition = text.dropWhile condition ++ more := by
  induction text with
  | nil =>
    have no := stops.resolve_left fun some => some rfl
    cases more with
    | nil => simp
    | cons c more => simp [no c rfl]
  | cons c text ih =>
    by_cases good : condition c = true
    · have inner : Stops condition text more := by simpa [Stops, good] using stops
      simpa [good] using ih inner
    · simp [good]

theorem run_followedBy (kind : Kind) (stops : Stops condition text more) :
    run kind condition (text ++ more) = (run kind condition text).followedBy more := by
  obtain ⟨taken, dropped⟩ := takeWhile_stops stops
  rw [run, run, followedBy, taken, dropped]

section Numbers

variable (detached : Detached more)

include detached

theorem stops_digits (text : List Char) : Stops Text.isDigit text more :=
  .inr fun c head => (detached c head).2.1

theorem digits_followedBy (text : List Char) :
    (text ++ more).takeWhile Text.isDigit = text.takeWhile Text.isDigit :=
  (takeWhile_stops (stops_digits detached text)).1

theorem fractionPart_followedBy (text : List Char) :
    fractionPart (text ++ more) = fractionPart text := by
  cases text with
  | nil =>
    cases more with
    | nil => rfl
    | cons c rest =>
      by_cases point : c = '.'
      · subst point
        cases rest with
        | nil => rfl
        | cons d rest => simp [fractionPart, (detached '.' rfl).2.2.2 rfl d rfl]
      · simp [fractionPart, point]
  | cons c rest =>
    by_cases point : c = '.'
    · subst point
      cases rest with
      | nil =>
        cases more with
        | nil => rfl
        | cons d rest => simp [fractionPart, (detached d rfl).2.1]
      | cons d rest =>
        have digits := digits_followedBy detached (d :: rest)
        rw [List.cons_append] at digits
        simp only [List.cons_append, fractionPart, digits]
    · simp [fractionPart, point]

theorem exponentPart_followedBy (text : List Char) :
    exponentPart (text ++ more) = exponentPart text := by
  cases text with
  | nil =>
    cases more with
    | nil => rfl
    | cons c rest =>
      have noName := (detached c rfl).1
      have noMark : ¬(c = 'e' ∨ c = 'E') := by
        rintro (rfl | rfl) <;> simp [isNameRest] at noName
      simp [exponentPart, noMark]
  | cons mark rest =>
    cases rest with
    | nil =>
      cases more with
      | nil => rfl
      | cons c more =>
        have noDigit := (detached c rfl).2.1
        have noSign := (detached c rfl).2.2.1
        have plus : c ≠ '+' := by rintro rfl; simp at noSign
        have minus : c ≠ '-' := by rintro rfl; simp at noSign
        simp [exponentPart, plus, minus, noDigit]
    | cons c rest =>
      have same := digits_followedBy detached rest
      have whole := digits_followedBy detached (c :: rest)
      rw [List.cons_append] at whole
      by_cases plus : c = '+'
      · subst plus
        simp [exponentPart, same]
      · by_cases minus : c = '-'
        · subst minus
          simp [exponentPart, same]
        · simp [exponentPart, plus, minus, whole]

theorem number_followedBy (text : List Char) :
    number (text ++ more) = (number text).followedBy more := by
  obtain ⟨taken, dropped⟩ := takeWhile_stops (stops_digits detached text)
  have fraction := (fractionPart_isPrefix (text.dropWhile Text.isDigit)).length_le
  have exponent := (exponentPart_isPrefix ((text.dropWhile Text.isDigit).drop
    (fractionPart (text.dropWhile Text.isDigit)).length)).length_le
  simp only [number, followedBy, taken, dropped, fractionPart_followedBy detached,
    List.drop_append_of_le_length fraction, exponentPart_followedBy detached,
    List.drop_append_of_le_length exponent]

end Numbers

theorem commentTail_followedBy (closed : (commentTail text).2.2 = true) (more : List Char) :
    commentTail (text ++ more) =
      ((commentTail text).1, (commentTail text).2.1 ++ more, true) := by
  fun_induction commentTail text with
  | case1 => cases closed
  | case2 rest => rfl
  | case3 c rest notEnd inside behind terminated found ih =>
    rw [found] at ih
    have inner := ih closed
    have goesOn : ∀ rest', c = '*' → rest ++ more = '/' :: rest' → False := by
      intro rest' star slash
      cases rest with
      | nil =>
        cases found
        cases closed
      | cons d rest =>
        obtain ⟨rfl, -⟩ := List.cons.inj slash
        exact notEnd rest star rfl
    rw [List.cons_append, commentTail.eq_3 _ _ goesOn, inner]

theorem stringTail?_followedBy {inside : List Char}
    (found : stringTail? text = some (inside, behind, true)) (more : List Char) :
    stringTail? (text ++ more) = some (inside, behind ++ more, true) := by
  fun_induction stringTail? text generalizing inside behind with
  | case1 => cases found
  | case2 rest =>
    cases found
    rfl
  | case3 rest => cases found
  | case4 => cases found
  | case5 => cases found
  | case6 c rest notEnd ih =>
    obtain ⟨⟨inside', behind', terminated'⟩, inner, same⟩ := Option.map_eq_some_iff.mp found
    cases same
    simp [stringTail?, notEnd, ih inner]
  | case7 c rest _ _ _ _ ih =>
    obtain ⟨⟨inside', behind', terminated'⟩, inner, same⟩ := Option.map_eq_some_iff.mp found
    cases same
    have more' := ih inner
    have plain : ∀ d rest', c = '\\' → rest ++ more = d :: rest' → False := by
      rintro d rest' rfl -
      cases rest with
      | nil => simp_all
      | cons d rest => simp_all
    have single : c = '\\' → rest ++ more = [] → False := by
      rintro rfl none
      obtain ⟨rfl, -⟩ := List.append_eq_nil_iff.mp none
      simp_all
    rw [List.cons_append, stringTail?.eq_6 c _ ‹_› ‹_› single plain, more']
    rfl

/-- No operator goes on with a character that none of them has inside. -/
theorem isPrefixOf_followedBy (ends : ∀ d ∈ more.head?, d ∉ ['-', '!', '+', '*', '=', '/'])
    {entry : String × Kind}
    (listed : entry ∈ Kind.operators) (c : Char) (rest : List Char) :
    entry.1.toList.isPrefixOf (c :: (rest ++ more)) = entry.1.toList.isPrefixOf (c :: rest) := by
  have apart : ∀ tail rest : List Char, (∀ d ∈ tail, d ∉ more.head?) →
      tail.isPrefixOf (rest ++ more) = tail.isPrefixOf rest := by
    intro tail rest
    induction rest generalizing tail with
    | nil =>
      intro none
      cases tail with
      | nil => simp
      | cons d tail =>
        cases more with
        | nil => rfl
        | cons e more =>
          have different : d ≠ e := by simpa [eq_comm] using none d (by simp)
          simp [List.isPrefixOf, different]
    | cons e rest ih =>
      intro none
      cases tail with
      | nil => simp
      | cons d tail =>
        simp [List.isPrefixOf, ih tail fun d member => none d (by simp [member])]
  have tails : ∀ entry ∈ Kind.operators, ∀ d ∈ entry.1.toList.tail,
      d ∈ ['-', '!', '+', '*', '=', '/'] := by simp [Kind.operators]
  have inner := apart entry.1.toList.tail rest fun d member head =>
    ends d head (tails entry listed d member)
  cases found : entry.1.toList with
  | nil => rfl
  | cons e tail =>
    rw [found, List.tail_cons] at inner
    simp [List.isPrefixOf, inner]

theorem operator_followedBy (ends : ∀ d ∈ more.head?, d ∉ ['-', '!', '+', '*', '=', '/']) (c : Char)
    (rest : List Char) :
    operator c (rest ++ more) = (operator c rest).followedBy more := by
  have same : ∀ entry ∈ Kind.operators, entry.1.toList.isPrefixOf (c :: (rest ++ more)) =
      entry.1.toList.isPrefixOf (c :: rest) := fun entry listed =>
    isPrefixOf_followedBy ends listed c rest
  have found : (Kind.operators.find? fun entry =>
      entry.1.toList.isPrefixOf (c :: (rest ++ more))) =
      Kind.operators.find? fun entry => entry.1.toList.isPrefixOf (c :: rest) :=
    List.find?_congr same
  unfold operator
  rw [found]
  split
  next entry found =>
    have fits : entry.1.toList.isPrefixOf (c :: rest) = true := by
      simpa using List.find?_some found
    have shorter := (List.isPrefixOf_iff_prefix.mp fits).length_le
    rw [String.length_toList] at shorter
    rw [followedBy, ← List.drop_append_of_le_length shorter]
    rfl
  next => rfl

theorem name_followedBy (stops : Stops isNameRest text more) :
    name (text ++ more) = (name text).followedBy more := by
  obtain ⟨taken, dropped⟩ := takeWhile_stops stops
  simp only [name, followedBy, taken, dropped]

/-- A string that ends in its line is the same with more text behind it. -/
theorem quote_followedBy (string : (quote rest).kind = .string)
    (closed : (quote rest).terminated = true) (more : List Char) :
    quote (rest ++ more) = (quote rest).followedBy more := by
  unfold quote at string closed ⊢
  cases found : stringTail? rest with
  | none => simp [found] at string
  | some tail =>
    obtain ⟨inside, behind, terminated⟩ := tail
    simp only [found] at closed
    subst closed
    rw [stringTail?_followedBy found]
    rfl

/-- A comment goes on to the end of its line. -/
theorem stops_line (line : more.head? = some '\n') : Stops (· != '\n') text more := by
  refine .inr fun c head => ?_
  obtain rfl : c = '\n' := by simpa [line, eq_comm] using head
  rfl

theorem next_lineComment (behind : List Char) : next '/' ('/' :: behind) =
    run .lineComment (· != '\n') ('/' :: '/' :: behind) := rfl

theorem next_blockComment (inside : List Char) : next '/' ('*' :: inside) =
    ⟨.blockComment, '/' :: '*' :: (commentTail inside).1, (commentTail inside).2.1,
      (commentTail inside).2.2⟩ := rfl

/-- A slash is an operator unless a slash or a star behind it begins a comment. -/
theorem next_slash (plain : ∀ d ∈ rest.head?, d ≠ '/' ∧ d ≠ '*') :
    next '/' rest = operator '/' rest := by
  have blank : Text.isBlank '/' = false := by decide
  have digit : Text.isDigit '/' = false := by decide
  have name : isNameStart '/' = false := by decide
  simp only [next, blank, digit, name, Bool.false_eq_true, if_false]
  split
  next same => exact absurd same (by decide)
  next => exact absurd rfl (plain '/' rfl).1
  next => exact absurd rfl (plain '*' rfl).2
  next same => exact absurd same (by decide)
  next => rfl

theorem slash_followedBy (detached : Detached more)
    (closed : (next '/' rest).kind = .blockComment → (next '/' rest).terminated = true)
    (line : (next '/' rest).kind = .lineComment → more.head? = some '\n') :
    next '/' (rest ++ more) = (next '/' rest).followedBy more := by
  by_cases plain : ∀ d ∈ rest.head?, d ≠ '/' ∧ d ≠ '*'
  · have behind : ∀ d ∈ (rest ++ more).head?, d ≠ '/' ∧ d ≠ '*' := by
      intro d first
      cases rest with
      | nil =>
        have none := detached.ends d first
        constructor <;> rintro rfl <;> simp at none
      | cons e rest => exact plain d first
    rw [next_slash plain, next_slash behind]
    exact operator_followedBy detached.ends '/' rest
  · obtain ⟨d, first, mark⟩ : ∃ d ∈ rest.head?, d = '/' ∨ d = '*' := by
      simpa [-not_and, not_and_or] using plain
    obtain ⟨inside, rfl⟩ := List.head?_eq_some_iff.mp first
    rcases mark with rfl | rfl
    · exact run_followedBy _ (@stops_line ('/' :: '/' :: inside) more (line rfl))
    · have closed : (commentTail inside).2.2 = true := closed rfl
      rw [List.cons_append, next_blockComment, next_blockComment, commentTail_followedBy closed]
      simp [followedBy, closed]

/-- The first token of a text stays the same with more text behind it, if it is complete and the
text behind carries nothing on. -/
theorem next_followedBy (detached : Detached more)
    (formed : (next c rest).kind ≠ .unknown ∧
      ((next c rest).kind = .blockComment ∨ (next c rest).kind = .string →
        (next c rest).terminated = true))
    (line : (next c rest).kind = .lineComment → more.head? = some '\n')
    (blank : Text.isBlank c = true → Stops Text.isBlank (c :: rest) more) :
    next c (rest ++ more) = (next c rest).followedBy more := by
  by_cases slash : c = '/'
  · subst slash
    exact slash_followedBy detached (fun comment => formed.2 (.inl comment)) line
  unfold next at formed line ⊢
  split
  next isBlank => exact run_followedBy _ (blank isBlank)
  next noBlank =>
    rw [if_neg noBlank] at formed line
    split
    next => exact number_followedBy detached (c :: rest)
    next noDigit =>
      rw [if_neg noDigit] at formed line
      split
      next =>
        have stops : Stops isNameRest (c :: rest) more := .inr fun d head => (detached d head).1
        exact name_followedBy stops
      next noName =>
        rw [if_neg noName] at formed line
        by_cases hash : c = '#'
        · subst hash
          exact run_followedBy _ (@stops_line ('#' :: rest) more (line rfl))
        by_cases quoted : c = '"'
        · subst quoted
          have string := (quote_kind rest).resolve_right formed.1
          exact quote_followedBy string (formed.2 (.inr string)) more
        simp [slash, operator_followedBy detached.ends]

end Followed

end Lexeme

end AgentSpeak.Source
