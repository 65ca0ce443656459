import AgentSpeak.Proofs.Source.Lexing

namespace AgentSpeak.Source

namespace Lexeme

variable {c : Char} {text rest more : List Char} {condition : Char → Bool}

/-- A run of characters that ends within a text ends there by itself. -/
theorem stops_of_fits (fits : ((text ++ more).takeWhile condition).length ≤ text.length) :
    Stops condition text more := by
  by_cases all : text.dropWhile condition = []
  · have whole : ∀ d ∈ text, condition d = true := List.dropWhile_eq_nil_iff.mp all
    rw [List.takeWhile_append_of_pos whole, List.length_append] at fits
    have none : more.takeWhile condition = [] := List.length_eq_zero_iff.mp (by omega)
    refine .inr fun d head => ?_
    cases more with
    | nil => cases head
    | cons e more =>
      obtain rfl := Option.some.inj head
      simpa using none
  · exact .inl all

theorem fractionPart_fits (fits : (fractionPart (text ++ more)).length ≤ text.length) :
    fractionPart (text ++ more) = fractionPart text := by
  cases text with
  | nil => exact List.length_eq_zero_iff.mp (Nat.le_zero.mp fits)
  | cons c rest =>
    by_cases point : c = '.'
    · subst point
      cases rest with
      | nil =>
        cases more with
        | nil => rfl
        | cons d more =>
          by_cases digit : Text.isDigit d = true
          · simp [fractionPart, digit] at fits
          · simp [fractionPart, digit]
      | cons d rest =>
        by_cases digit : Text.isDigit d = true
        · have inner : (((d :: rest) ++ more).takeWhile Text.isDigit).length ≤ (d :: rest).length := by
            simpa [fractionPart, digit] using fits
          have same := (takeWhile_stops (stops_of_fits inner)).1
          rw [List.cons_append] at same
          simp only [List.cons_append, fractionPart, same]
        · simp [fractionPart, digit]
    · simp [fractionPart, point]

/-- An exponent of a mark, a sign and digits; nothing without digits. -/
def exponentOf (mark : Char) (sign digits : List Char) : List Char :=
  if digits.isEmpty then [] else mark :: (sign ++ digits)

section Exponents

variable {mark : Char} {sign : List Char}

theorem exponentOf_short (short : (exponentOf mark sign text).length ≤ 1) :
    exponentOf mark sign text = [] := by
  cases text with
  | nil => rfl
  | cons c rest => simp [exponentOf] at short

theorem exponentOf_fits
    (fits : (exponentOf mark sign ((text ++ more).takeWhile Text.isDigit)).length ≤
      1 + sign.length + text.length) :
    (text ++ more).takeWhile Text.isDigit = text.takeWhile Text.isDigit := by
  refine (takeWhile_stops (stops_of_fits ?_)).1
  unfold exponentOf at fits
  split at fits
  next none => simp [List.isEmpty_iff.mp none]
  next =>
    simp only [List.length_cons, List.length_append] at fits
    omega

theorem exponentPart_signed (marked : mark = 'e' ∨ mark = 'E') (signed : c = '+' ∨ c = '-')
    (rest : List Char) : exponentPart (mark :: c :: rest) =
      exponentOf mark [c] (rest.takeWhile Text.isDigit) := by
  rcases signed with rfl | rfl <;> rw [exponentPart, if_pos marked] <;> rfl

theorem exponentPart_unsigned (marked : mark = 'e' ∨ mark = 'E')
    (unsigned : ∀ d ∈ rest.head?, ¬(d = '+' ∨ d = '-')) :
    exponentPart (mark :: rest) = exponentOf mark [] (rest.takeWhile Text.isDigit) := by
  simp only [exponentPart, if_pos marked]
  split
  next => exact absurd (.inl rfl) (unsigned '+' rfl)
  next => exact absurd (.inr rfl) (unsigned '-' rfl)
  next => rfl

theorem exponentPart_fits (fits : (exponentPart (text ++ more)).length ≤ text.length) :
    exponentPart (text ++ more) = exponentPart text := by
  cases text with
  | nil => exact List.length_eq_zero_iff.mp (Nat.le_zero.mp fits)
  | cons mark rest =>
    by_cases marked : mark = 'e' ∨ mark = 'E'
    · cases rest with
      | nil =>
        rw [@exponentPart_unsigned [] mark marked nofun]
        by_cases unsigned : ∀ d ∈ more.head?, ¬(d = '+' ∨ d = '-')
        · have whole := exponentPart_unsigned marked unsigned
          rw [List.cons_append, List.nil_append, whole] at fits ⊢
          exact exponentOf_short fits
        · cases more with
          | nil => exact absurd nofun unsigned
          | cons c more =>
            have signed : c = '+' ∨ c = '-' := by simpa [-not_or] using unsigned
            have whole := exponentPart_signed marked signed more
            rw [List.cons_append, List.nil_append, whole] at fits ⊢
            exact exponentOf_short fits
      | cons c rest =>
        rw [List.cons_append, List.cons_append] at fits ⊢
        by_cases signed : c = '+' ∨ c = '-'
        · rw [exponentPart_signed marked signed] at fits ⊢
          have same := exponentOf_fits (fits.trans (by simp only [List.length_cons]; omega))
          rw [exponentPart_signed marked signed rest, same]
        · have unsigned {rest : List Char} : ∀ d ∈ (c :: rest).head?, ¬(d = '+' ∨ d = '-') := by
            simpa using signed
          rw [exponentPart_unsigned marked unsigned] at fits ⊢
          rw [← List.cons_append] at fits ⊢
          have same := exponentOf_fits (fits.trans (by simp only [List.length_cons]; omega))
          rw [exponentPart_unsigned marked unsigned, same]
    · simp [exponentPart, marked]

end Exponents

theorem number_fits (fits : (number (text ++ more)).text.length ≤ text.length) :
    number (text ++ more) = (number text).followedBy more := by
  simp only [number, List.length_append] at fits
  have first : ((text ++ more).takeWhile Text.isDigit).length ≤ text.length := by omega
  obtain ⟨taken, dropped⟩ := takeWhile_stops (stops_of_fits first)
  have whole : (text.takeWhile Text.isDigit).length + (text.dropWhile Text.isDigit).length =
      text.length := by
    rw [← List.length_append, List.takeWhile_append_dropWhile]
  rw [taken, dropped] at fits
  have fraction : fractionPart (text.dropWhile Text.isDigit ++ more) =
    fractionPart (text.dropWhile Text.isDigit) := fractionPart_fits (by omega)
  have inside := (fractionPart_isPrefix (text.dropWhile Text.isDigit)).length_le
  rw [fraction, List.drop_append_of_le_length inside] at fits
  have exponent : exponentPart ((text.dropWhile Text.isDigit).drop
      (fractionPart (text.dropWhile Text.isDigit)).length ++ more) =
        exponentPart ((text.dropWhile Text.isDigit).drop
          (fractionPart (text.dropWhile Text.isDigit)).length) :=
    exponentPart_fits (by rw [List.length_drop]; omega)
  have inside' := (exponentPart_isPrefix ((text.dropWhile Text.isDigit).drop
    (fractionPart (text.dropWhile Text.isDigit)).length)).length_le
  simp only [number, followedBy, taken, dropped, fraction,
    List.drop_append_of_le_length inside, exponent, List.drop_append_of_le_length inside']

/-- A comment that is open at a place ends behind it. -/
theorem commentTail_fits (fits : (commentTail (text ++ more)).1.length ≤ text.length) :
    commentTail (text ++ more) =
      ((commentTail text).1, (commentTail text).2.1 ++ more, (commentTail text).2.2) := by
  fun_induction commentTail text with
  | case1 =>
    have none : (commentTail more).1 = [] := List.length_eq_zero_iff.mp (Nat.le_zero.mp fits)
    cases more with
    | nil => rfl
    | cons c rest =>
      unfold commentTail at none
      split at none
      next same => cases same
      next => cases none
      next => cases none
  | case2 rest => rfl
  | case3 c rest notEnd inside behind terminated found ih =>
    have goesOn : ∀ rest', c = '*' → rest ++ more = '/' :: rest' → False := by
      rintro rest' rfl slash
      cases rest with
      | nil =>
        rw [List.nil_append] at slash
        simp [slash, commentTail] at fits
      | cons d rest =>
        obtain ⟨rfl, -⟩ := List.cons.inj slash
        exact notEnd rest rfl rfl
    rw [List.cons_append, commentTail.eq_3 _ _ goesOn] at fits ⊢
    rw [found] at ih
    simp [ih (by simpa using fits)]

/-- A string without characters behind its opening quote ends at a line or at the end. -/
theorem stringTail?_empty {behind : List Char} {terminated : Bool}
    (found : stringTail? text = some ([], behind, terminated)) :
    behind = text ∧ terminated = false := by
  refine ⟨stringTail?_split found, ?_⟩
  unfold stringTail? at found
  split at found
  next => exact (congrArg (·.2.2) (Option.some.inj found)).symm
  next => cases found
  next => exact (congrArg (·.2.2) (Option.some.inj found)).symm
  next => cases found
  next =>
    split at found
    · cases found
    · obtain ⟨_, -, same⟩ := Option.map_eq_some_iff.mp found
      cases same
  next =>
    obtain ⟨_, -, same⟩ := Option.map_eq_some_iff.mp found
    cases same

theorem stringTail?_fits {inside behind : List Char} {terminated : Bool}
    (found : stringTail? (text ++ more) = some (inside, behind, terminated))
    (fits : inside.length ≤ text.length) :
    ∃ rest, stringTail? text = some (inside, rest, terminated) ∧ behind = rest ++ more := by
  fun_induction stringTail? text generalizing inside behind terminated with
  | case1 =>
    obtain rfl := List.length_eq_zero_iff.mp (Nat.le_zero.mp fits)
    obtain ⟨rfl, rfl⟩ := stringTail?_empty found
    exact ⟨[], rfl, rfl⟩
  | case2 rest =>
    cases found
    exact ⟨rest, rfl, rfl⟩
  | case3 rest =>
    cases found
    exact ⟨_, rfl, rfl⟩
  | case4 =>
    cases more with
    | nil => cases found
    | cons c more =>
      rw [List.cons_append, List.nil_append, stringTail?] at found
      split at found
      · cases found
      · obtain ⟨_, -, same⟩ := Option.map_eq_some_iff.mp found
        cases same
        simp at fits
  | case5 rest => simp [stringTail?] at found
  | case6 c rest noLine ih =>
    rw [List.cons_append, List.cons_append, stringTail?, if_neg noLine] at found
    obtain ⟨⟨inside', behind', terminated'⟩, inner, same⟩ := Option.map_eq_some_iff.mp found
    cases same
    obtain ⟨rest', shorter, rfl⟩ := ih inner (by simpa using fits)
    exact ⟨rest', by rw [shorter]; rfl, rfl⟩
  | case7 c rest noQuote noLine single escape ih =>
    have plain : c ≠ '\\' := by
      rintro rfl
      cases rest with
      | nil => exact single rfl rfl
      | cons d rest => exact escape d rest rfl rfl
    rw [List.cons_append, stringTail?.eq_6 c _ noQuote noLine (fun same => absurd same plain)
      (fun _ _ same => absurd same plain)] at found
    obtain ⟨⟨inside', behind', terminated'⟩, inner, same⟩ := Option.map_eq_some_iff.mp found
    cases same
    obtain ⟨rest', shorter, rfl⟩ := ih inner (by simpa using fits)
    exact ⟨rest', by rw [shorter]; rfl, rfl⟩

/-- An operator that fits into a text is the first of its operators, too. -/
theorem operator_fits (known : (operator c (rest ++ more)).kind ≠ .unknown)
    (fits : (operator c (rest ++ more)).text.length ≤ (c :: rest).length) :
    operator c (rest ++ more) = (operator c rest).followedBy more := by
  unfold operator at known fits
  split at fits
  next entry found =>
    obtain ⟨starts, before, behind, listed, others⟩ := List.find?_eq_some_iff_append.mp found
    rw [← List.cons_append, List.isPrefixOf_iff_prefix] at starts
    have short : entry.1.toList <+: c :: rest :=
      List.prefix_of_prefix_length_le starts (List.prefix_append _ _) fits
    have same : Kind.operators.find? (fun entry => entry.1.toList.isPrefixOf (c :: rest)) =
        some entry := by
      refine List.find?_eq_some_iff_append.mpr
        ⟨List.isPrefixOf_iff_prefix.mpr short, before, behind, listed, fun other member => ?_⟩
      have longer := others other member
      simp only [Bool.not_eq_true', ← Bool.not_eq_true, List.isPrefixOf_iff_prefix] at longer ⊢
      rw [← List.cons_append] at longer
      exact fun shorter => longer (shorter.trans (List.prefix_append _ _))
    have length := short.length_le
    rw [String.length_toList] at length
    simp only [operator, found, same, followedBy, ← List.drop_append_of_le_length length,
      List.cons_append]
  next none => simp [none] at known

theorem run_fits (kind : Kind) {condition : Char → Bool}
    (fits : (run kind condition (c :: (rest ++ more))).text.length ≤ (c :: rest).length) :
    run kind condition (c :: (rest ++ more)) = (run kind condition (c :: rest)).followedBy more :=
  run_followedBy kind (@stops_of_fits (c :: rest) more condition fits)

theorem name_fits (fits : (name (c :: (rest ++ more))).text.length ≤ (c :: rest).length) :
    name (c :: (rest ++ more)) = (name (c :: rest)).followedBy more :=
  name_followedBy (@stops_of_fits (c :: rest) more isNameRest fits)

theorem quote_fits (known : (quote (rest ++ more)).kind ≠ .unknown)
    (fits : (quote (rest ++ more)).text.length ≤ ('"' :: rest).length) :
    quote (rest ++ more) = (quote rest).followedBy more := by
  simp only [quote] at known fits ⊢
  split at fits
  next inside behind terminated found =>
    obtain ⟨rest', shorter, rfl⟩ := stringTail?_fits found (by simpa using fits)
    rw [shorter]
    rfl
  next none => simp [none] at known

theorem slash_fits (known : (next '/' (rest ++ more)).kind ≠ .unknown)
    (fits : (next '/' (rest ++ more)).text.length ≤ ('/' :: rest).length) :
    next '/' (rest ++ more) = (next '/' rest).followedBy more := by
  by_cases plain : ∀ d ∈ (rest ++ more).head?, d ≠ '/' ∧ d ≠ '*'
  · have inside : ∀ d ∈ rest.head?, d ≠ '/' ∧ d ≠ '*' := fun d first =>
      plain d (by rw [List.head?_append, Option.mem_def.mp first]; rfl)
    rw [next_slash plain] at known fits ⊢
    rw [next_slash inside]
    exact operator_fits known fits
  · obtain ⟨d, first, mark⟩ : ∃ d ∈ (rest ++ more).head?, d = '/' ∨ d = '*' := by
      simpa [-not_and, not_and_or] using plain
    cases rest with
    | nil =>
      obtain ⟨behind, rfl⟩ := List.head?_eq_some_iff.mp first
      rw [List.nil_append] at fits
      rcases mark with rfl | rfl
      · simp [next_lineComment, run] at fits
      · simp [next_blockComment] at fits
    | cons e rest =>
      obtain rfl : e = d := Option.some.inj first
      rcases mark with rfl | rfl
      · exact run_fits _ fits
      · rw [List.cons_append, next_blockComment] at fits ⊢
        have inner : commentTail (rest ++ more) = _ := commentTail_fits (by simpa using fits)
        simp [next_blockComment, inner, followedBy]

/-- A token that ends within a text does not depend on what stands behind that text. -/
theorem next_fits (known : (next c (rest ++ more)).kind ≠ .unknown)
    (fits : (next c (rest ++ more)).text.length ≤ (c :: rest).length) :
    next c (rest ++ more) = (next c rest).followedBy more := by
  by_cases slash : c = '/'
  · subst slash
    exact slash_fits known fits
  unfold next at known fits ⊢
  split
  next isBlank =>
    rw [if_pos isBlank] at fits
    exact run_fits _ fits
  next noBlank =>
    rw [if_neg noBlank] at known fits
    split
    next isDigit =>
      rw [if_pos isDigit] at fits
      exact @number_fits (c :: rest) more fits
    next noDigit =>
      rw [if_neg noDigit] at known fits
      split
      next isName =>
        rw [if_pos isName] at fits
        exact name_fits fits
      next noName =>
        rw [if_neg noName] at known fits
        by_cases hash : c = '#'
        · subst hash
          exact run_fits _ fits
        by_cases quoted : c = '"'
        · subst quoted
          exact quote_fits known fits
        have operators : operator c (rest ++ more) = _ :=
          operator_fits (by simpa [hash, slash, quoted] using known)
            (by simpa [hash, slash, quoted] using fits)
        simpa [hash, slash, quoted] using operators

end Lexeme

/-- The text that tokens take. -/
def textOf (tokens : List Token) : List Char :=
  tokens.flatMap Token.text

variable {position : Position} {text : List Char} {tokens after : List Token} {token : Token}

theorem textOf_lex (position : Position) (text : List Char) : textOf (lex position text) = text := by
  induction text using lexing generalizing position with
  | nil => rfl
  | cons c rest ih =>
    rw [lex_cons, textOf, List.flatMap_cons, ← textOf, ih]
    exact (Lexeme.splits_next c rest).whole

/-- Some tokens from the front of a text take the text up to a place at which the others begin. -/
theorem lex_append (split : lex position text = tokens ++ after) :
    ∃ rest, text = textOf tokens ++ rest ∧ after = lex (position.after (textOf tokens)) rest := by
  induction tokens generalizing position text with
  | nil => exact ⟨text, rfl, split.symm⟩
  | cons token tokens ih =>
    cases text with
    | nil => cases split
    | cons c rest =>
      rw [lex_cons, List.cons_append, List.cons.injEq] at split
      obtain ⟨rest', whole, same⟩ := ih split.2
      have first : token.text = (Lexeme.next c rest).text := split.1 ▸ rfl
      refine ⟨rest', ?_, ?_⟩
      · rw [textOf, List.flatMap_cons, ← textOf, List.append_assoc, ← whole, first]
        exact (Lexeme.splits_next c rest).whole.symm
      · rw [textOf, List.flatMap_cons, ← textOf, Position.after_append, first]
        exact same

/-- Tokens from the front of a text are all the tokens of the text that they take. -/
theorem lex_textOf (split : lex position text = tokens ++ after)
    (known : ∀ token ∈ tokens, token.kind ≠ .unknown) :
    lex position (textOf tokens) = tokens := by
  induction tokens generalizing position text with
  | nil => rfl
  | cons token tokens ih =>
    cases text with
    | nil => cases split
    | cons c rest =>
      rw [lex_cons, List.cons_append, List.cons.injEq] at split
      obtain ⟨rfl, behind⟩ := split
      have inner := ih behind fun other member => known other (List.mem_cons_of_mem _ member)
      obtain ⟨more, whole, -⟩ := lex_append behind
      obtain ⟨split, some⟩ := Lexeme.splits_next c rest
      cases text : (Lexeme.next c rest).text with
      | nil => exact absurd text some
      | cons d first =>
        rw [text, whole, List.cons_append, List.cons.injEq, ← List.append_assoc] at split
        obtain ⟨rfl, rfl⟩ := split
        have short : (Lexeme.next d (first ++ textOf tokens ++ more)).text.length ≤
            (d :: (first ++ textOf tokens)).length := by
          rw [text, List.length_cons, List.length_cons, List.length_append]
          omega
        have same := Lexeme.next_fits (known _ List.mem_cons_self) short
        have taken : textOf (firstToken position d (first ++ textOf tokens ++ more) :: tokens) =
            d :: (first ++ textOf tokens) := by
          show (Lexeme.next d (first ++ textOf tokens ++ more)).text ++ textOf tokens = _
          rw [text]
          rfl
        have token : firstToken position d (first ++ textOf tokens) =
            firstToken position d (first ++ textOf tokens ++ more) := by
          rw [firstToken, firstToken, same]
          rfl
        have others : (Lexeme.next d (first ++ textOf tokens)).rest = textOf tokens := by
          rw [same] at whole
          exact List.append_cancel_right whole
        have texts : (Lexeme.next d (first ++ textOf tokens)).text =
            (Lexeme.next d (first ++ textOf tokens ++ more)).text := congrArg Token.text token
        rw [taken, lex_cons, token, others, texts, inner]

theorem position_of_lex (begins : lex position text = token :: after) :
    token.position = position := by
  cases text with
  | nil => cases begins
  | cons c rest =>
    rw [lex_cons, List.cons.injEq] at begins
    rw [← begins.1]
    rfl

/-- The part of a text from the first to the last of some tokens. -/
def sourceOf (text : List Char) (tokens : List Token) : List Char :=
  match tokens.head?, tokens.getLast? with
  | some first, some last =>
      (text.drop first.position.offset).take (last.stop - first.position.offset)
  | _, _ => []

/-- Some tokens of a text, one right behind the other, take the text from the first to the last of
them. -/
theorem sourceOf_eq_textOf {before : List Token} (split : lex .start text = before ++ tokens ++ after)
    (some : tokens ≠ []) : sourceOf text tokens = textOf tokens := by
  rw [List.append_assoc] at split
  obtain ⟨rest, whole, begins⟩ := lex_append split
  obtain ⟨more, inner, -⟩ := lex_append begins.symm
  obtain ⟨first, others, rfl⟩ := List.exists_cons_of_ne_nil some
  obtain ⟨init, last, ends⟩ : ∃ init last, first :: others = init ++ [last] :=
    ⟨_, _, (List.dropLast_append_getLast some).symm⟩
  have head : first.position.offset = (textOf before).length := by
    rw [position_of_lex begins.symm, offset_after]
    exact Nat.zero_add _
  have stop : last.stop = (textOf before).length + (textOf (first :: others)).length := by
    have begins' := begins
    rw [ends, List.append_assoc] at begins'
    obtain ⟨_, -, lastBegins⟩ := lex_append begins'.symm
    rw [Token.stop, position_of_lex lastBegins.symm, offset_after, offset_after, ends]
    simp only [textOf, List.flatMap_append, List.length_append, List.flatMap_cons, List.flatMap_nil,
      List.length_nil, Position.start]
    omega
  rw [sourceOf, ends, List.getLast?_concat, ← ends, List.head?_cons]
  simp only [head, stop, Nat.add_sub_cancel_left]
  rw [whole, inner, List.drop_left, List.take_left]

theorem Token.isSkipped_known (skipped : token.isSkipped = true) : token.kind ≠ .unknown := by
  intro unknown
  simp [isSkipped, unknown, Kind.isTrivia] at skipped

/-- Where some members of a list are kept, those kept one behind the other are what is kept of a
part of the list that begins and ends with the first and the last of them. -/
theorem exists_trimmed {α : Type} {keep : α → Bool} {items before kept after : List α}
    (split : items.filter keep = before ++ kept ++ after) (some : kept ≠ []) :
    ∃ front part back, items = front ++ part ++ back ∧ part.filter keep = kept ∧
      part.head? = kept.head? ∧ part.getLast? = kept.getLast? := by
  obtain ⟨upTo, back, rfl, keptUpTo, -⟩ := List.filter_eq_append_iff.mp split
  obtain ⟨front, rest, rfl, -, keptRest⟩ := List.filter_eq_append_iff.mp keptUpTo
  obtain ⟨init, last, ends⟩ : ∃ init last, kept = init ++ [last] :=
    ⟨_, _, (List.dropLast_append_getLast some).symm⟩
  obtain ⟨inside, ending, rfl, keptInside, keptEnding⟩ :=
    List.filter_eq_append_iff.mp (keptRest.trans ends)
  obtain ⟨gap, back', rfl, noneInGap, keepsLast, -⟩ := List.filter_eq_cons_iff.mp keptEnding
  have keptUpToLast : (inside ++ gap ++ [last]).filter keep = kept := by
    simp [keptInside, keepsLast, List.filter_eq_nil_iff.mpr noneInGap, ends]
  obtain ⟨first, others, begins⟩ := List.exists_cons_of_ne_nil some
  obtain ⟨gap', part, same, -, keepsFirst, keptPart⟩ :=
    List.filter_eq_cons_iff.mp (keptUpToLast.trans begins)
  refine ⟨front ++ gap', first :: part, back' ++ back, ?_, ?_, by simp [begins], ?_⟩
  · have whole : inside ++ (gap ++ last :: back') = gap' ++ (first :: part) ++ back' := by
      rw [← same]
      simp
    rw [whole]
    simp
  · rw [List.filter_cons_of_pos keepsFirst, keptPart, begins]
  · have lasts := congrArg List.getLast? same
    rw [List.getLast?_concat, List.getLast?_append_of_ne_nil _ (by simp)] at lasts
    rw [← lasts, ends, List.getLast?_concat]

/-- Well-formed tokens that a grammar sees one behind the other are all that it sees in the text
from the first to the last of them. -/
theorem scan_sourceOf {before segment : List Token}
    (split : scan .start text = before ++ segment ++ after) (some : segment ≠ [])
    (formed : ∀ token ∈ segment, token.problem? = none) :
    ∃ position, scan position (sourceOf text segment) = segment := by
  obtain ⟨front, part, back, whole, kept, head, last⟩ := exists_trimmed split some
  have nonempty : part ≠ [] := by
    rintro rfl
    exact some kept.symm
  have known : ∀ token ∈ part, token.kind ≠ .unknown := by
    intro token member
    cases skipped : token.isSkipped with
    | true => exact Token.isSkipped_known skipped
    | false =>
      have inside : token ∈ segment := kept ▸ List.mem_filter.mpr ⟨member, by simp [skipped]⟩
      exact (Token.complete (formed token inside)).1
  have same : sourceOf text segment = textOf part := by
    rw [← sourceOf_eq_textOf whole nonempty, sourceOf, sourceOf, head, last]
  rw [List.append_assoc] at whole
  obtain ⟨rest, -, begins⟩ := lex_append whole
  refine ⟨Position.start.after (textOf front), ?_⟩
  rw [same, scan, lex_textOf begins.symm known, kept]

end AgentSpeak.Source
