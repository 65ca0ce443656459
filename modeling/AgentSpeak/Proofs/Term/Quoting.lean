import AgentSpeak.Proofs.Term.RoundTrip

namespace AgentSpeak

namespace Source

theorem Tidy.lex_append {text more : List Char} (tidy : Tidy text) (detached : Detached more)
    (shown : ∀ d ∈ more.head?, Text.isBlank d = false) (position : Position) :
    lex position (text ++ more) = lex position text ++ lex (position.after text) more :=
  lex_joined detached shown fun token member => (tidy position token member).closed more

end Source

namespace Term

open Source (Position Token Tidy Lexeme lex tokenize finishOf tokenize_eq)

/-- The token of a string's text that begins at a position. -/
def stringToken (position : Position) (value : String) : Token :=
  ⟨.string, (renderString value).toList, position, true⟩

/-- Whatever stands behind the text of a string, the text is one token, which is terminated. -/
theorem lex_renderString (value : String) (position : Position) (more : List Char) :
    lex position ((renderString value).toList ++ more) =
      stringToken position value :: lex (position.after (renderString value).toList) more := by
  have text : (renderString value).toList = '"' :: (value.toList.flatMap escapeChar ++ ['"']) := by
    rw [renderString, String.toList_ofList, List.cons_append]
  have next : Lexeme.next '"' (value.toList.flatMap escapeChar ++ ['"'] ++ more) =
      ⟨.string, '"' :: (value.toList.flatMap escapeChar ++ ['"']), more, true⟩ := by
    show Lexeme.quote _ = _
    rw [Lexeme.quote, List.append_assoc, List.singleton_append, stringTail?_escaped]
  rw [stringToken, text, List.cons_append, Source.lex_cons, Source.firstToken, next]

/-- A term whose text can be read: its names are words that are read as names. -/
inductive Speakable : Term → Prop where
  | truth : Speakable truth
  | falsity : Speakable falsity
  | name (name : String) (word : IsWord name) (kind : Lexeme.nameKind name.toList = .functor) :
      Speakable (.atom name)
  | nil : Speakable nil
  | number (value : Number) (writable : value.isWritable = true) : Speakable (.number value)
  | string (value : String) : Speakable (.string value)
  | wildcard (marks : List String) : Speakable (.var ⟨"_", marks⟩)
  | variableName (name : String) (marks : List String) (word : IsWord name)
      (kind : Lexeme.nameKind name.toList = .variableName) : Speakable (.var ⟨name, marks⟩)
  | call (functor : String) (arguments : List Term) (word : IsWord functor)
      (kind : Lexeme.nameKind functor.toList = .functor) (some : arguments ≠ [])
      (each : ∀ argument ∈ arguments, Speakable argument) :
      Speakable (.compound functor arguments)
  | pair (head tail : Term) (first : Speakable head) (second : Speakable tail) :
      Speakable (cons head tail)
  | binary (operator : Operator) (left right : Term) (first : Speakable left)
      (second : Speakable right) : Speakable (.compound operator.functor [left, right])
  | minus (operand : Term) (speakable : Speakable operand) : Speakable (.compound "-" [operand])

/-- From each count of wildcards on, the text of a term spells some term. -/
def Shown (term : Term) : Prop :=
  ∀ low, ∃ high value raise, Shows low high term value raise

variable {low high : Nat} {term : Term} {terms before after : List Term} {functor : String}

/-- The text of a number spells a term: the number, another number if that is nearer to its text, or
one of the names `inf` and `nan`, perhaps with a minus sign. -/
theorem shown_number {value : Number} (writable : value.isWritable = true) :
    Shown (.number value) := by
  have word (name : String) (word : IsWord name)
      (kind : Lexeme.nameKind name.toList = .functor) (low : Nat) :
      Spells Signed low low name.toList (.atom name) :=
    (shows_functor word kind).whole
  have spelled : ∀ low, ∃ other, Spells Signed low low value.render.toList other := by
    intro low
    cases value with
    | int value => exact ⟨_, spells_number writable fun _ same => by cases same⟩
    | float x =>
      cases x with
      | nan => exact ⟨_, word "nan" (by decide) (by decide) low⟩
      | infinite negative =>
        have inf := word "inf" (by decide) (by decide) low
        cases negative with
        | false => exact ⟨_, inf⟩
        | true =>
          have minus : Spells Signed low low ('-' :: "inf".toList) (.compound "-" [.atom "inf"]) :=
            inf.minus fun _ _ kind signed => .minus kind signed (by rintro _ ⟨⟩)
          exact ⟨_, minus⟩
      | finite negative units fits =>
        obtain ⟨read, done⟩ := Number.exists_read?_magnitude units
        have magnitude : Spells Signed low low (Binary64.renderMagnitude units).toList _ :=
          (spells_numberText (Binary64.isNumberText_magnitude units) done).mono fun _ => .single
        have text : (Number.float (.finite negative units fits)).render.toList =
            (if negative then ['-'] else []) ++ (Binary64.renderMagnitude units).toList := by
          cases negative <;> simp [Number.render, Binary64.render]
        rw [text]
        cases negative with
        | false => exact ⟨_, magnitude⟩
        | true =>
          have minus : Spells Signed low low ('-' :: (Binary64.renderMagnitude units).toList) _ :=
            magnitude.minus fun _ _ kind signed => Signed.folded kind signed
          exact ⟨_, minus⟩
  intro low
  obtain ⟨other, whole⟩ := spelled low
  exact ⟨low, other, _, shows_single rfl whole rfl⟩

theorem exists_showsAll (some : terms ≠ []) (each : ∀ term ∈ terms, term.Shown) (low : Nat) :
    ∃ high values, values.length = terms.length ∧ ShowsAll low high terms values := by
  induction terms generalizing low with
  | nil => exact absurd rfl some
  | cons term terms ih =>
    obtain ⟨own, others⟩ := List.forall_mem_cons.mp each
    obtain ⟨middle, value, _, first⟩ := own low
    cases terms with
    | nil => exact ⟨middle, [value], rfl, .single first⟩
    | cons next terms =>
      obtain ⟨high, values, arity, rest⟩ := ih (List.cons_ne_nil _ _) others middle
      exact ⟨high, value :: values, by simp [arity], .more first rest⟩

theorem Speakable.shown (speakable : term.Speakable) : term.Shown := by
  induction speakable with
  | truth => exact fun low => ⟨low, _, _, shows_truth low⟩
  | falsity => exact fun low => ⟨low, _, _, shows_falsity low⟩
  | name name word kind => exact fun low => ⟨low, _, _, shows_functor word kind⟩
  | nil => exact fun low => ⟨low, _, _, shows_nil low⟩
  | number value writable => exact shown_number writable
  | string value => exact fun low => ⟨low, _, _, shows_string low value⟩
  | wildcard marks => exact fun low => ⟨low + 1, _, _, shows_wildcard low marks⟩
  | variableName name marks word kind =>
    exact fun low => ⟨low, _, _, shows_variableName word kind marks⟩
  | call functor arguments word kind some each ih =>
    intro low
    obtain ⟨high, values, -, shows⟩ := exists_showsAll some ih low
    exact ⟨high, _, _, shows.call word kind⟩
  | pair head tail first second ih ih' =>
    intro low
    obtain ⟨middle, _, _, one⟩ := ih low
    obtain ⟨high, _, _, other⟩ := ih' middle
    exact ⟨high, _, _, one.cons other⟩
  | binary operator left right first second ih ih' =>
    intro low
    obtain ⟨middle, _, _, one⟩ := ih low
    obtain ⟨high, _, _, other⟩ := ih' middle
    by_cases power : operator = .power
    · subst power
      exact ⟨high, _, _, one.power other⟩
    · exact ⟨high, _, _, one.binary other power⟩
  | minus operand speakable ih =>
    intro low
    obtain ⟨high, _, _, inner⟩ := ih low
    exact ⟨high, _, _, inner.minus⟩

section Reading

/-- Every token of a name's kind has a text of that kind. -/
def AllNamed (tokens : List Token) : Prop :=
  ∀ token ∈ tokens, Named token

theorem AllNamed.mono {tokens tokens' : List Token} (named : AllNamed tokens)
    (fewer : tokens' ⊆ tokens) : AllNamed tokens' :=
  fun token member => named token (fewer member)

theorem speakable_ofList {tail : Term} (items : ∀ item ∈ terms, item.Speakable)
    (last : tail.Speakable) : (ofList terms tail).Speakable := by
  induction terms with
  | nil => exact last
  | cons item terms ih =>
    obtain ⟨own, others⟩ := List.forall_mem_cons.mp items
    exact .pair _ _ own (ih others)

theorem Items.ne_nil {w : Nat} {tokens : List Token} (items : Items w tokens terms) :
    terms ≠ [] := by
  cases items with
  | single | more => exact List.cons_ne_nil _ _

mutual

/-- What the grammar makes of tokens is speakable, rule by rule. -/
theorem Expression.speakable {w : Nat} {tokens : List Token} {term : Term} :
    Expression w tokens term → AllNamed tokens → term.Speakable
  | .single product, named => product.speakable named
  | .sum first listed second, named => by
    obtain ⟨operator, -, rfl⟩ := sums_binary _ listed
    exact .binary _ _ _ (first.speakable (named.mono (by simp)))
      (second.speakable (named.mono (by simp)))

theorem Product.speakable {w : Nat} {tokens : List Token} {term : Term} :
    Product w tokens term → AllNamed tokens → term.Speakable
  | .single power, named => power.speakable named
  | .product first listed second, named => by
    obtain ⟨operator, -, rfl⟩ := products_binary _ listed
    exact .binary _ _ _ (first.speakable (named.mono (by simp)))
      (second.speakable (named.mono (by simp)))

theorem Power.speakable {w : Nat} {tokens : List Token} {term : Term} :
    Power w tokens term → AllNamed tokens → term.Speakable
  | .single signed, named => signed.speakable named
  | .power first _ second, named =>
    .binary .power _ _ (first.speakable (named.mono (by simp)))
      (second.speakable (named.mono (by simp)))

theorem Signed.speakable {w : Nat} {tokens : List Token} {term : Term} :
    Signed w tokens term → AllNamed tokens → term.Speakable
  | .single primary, named => primary.speakable named
  | .folded kind operand, _ => .number _ (Signed.folded kind operand).isWritable
  | .minus _ operand _, named => .minus _ (operand.speakable (named.mono (by simp)))

theorem Primary.speakable {w : Nat} {tokens : List Token} {term : Term} :
    Primary w tokens term → AllNamed tokens → term.Speakable
  | .number _ read, _ => .number _ (Number.isWritable_of_read? read)
  | .string _, _ => .string _
  | .variableName kind, named => by
    obtain ⟨word, same⟩ := (named _ (by simp)).word kind
    exact .variableName _ _ word same
  | .wildcard _, _ => .wildcard _
  | .literal inner, named => inner.speakable named
  | .group _ inner _, named => inner.speakable (named.mono (by simp))
  | .nil _ _, _ => .nil
  | .list _ items _, named => speakable_ofList (items.speakable (named.mono (by simp))) .nil
  | .listTail _ items _ rest _, named =>
    speakable_ofList (items.speakable (named.mono (by simp)))
      (rest.speakable (named.mono fun _ member => by simp [member]))

theorem Literal.speakable {w : Nat} {tokens : List Token} {term : Term} :
    Literal w tokens term → AllNamed tokens → term.Speakable
  | .truth _, _ => .truth
  | .falsity _, _ => .falsity
  | .name kind, named | .empty kind _ _, named => by
    obtain ⟨word, same⟩ := (named _ (by simp)).word kind
    exact .name _ word same
  | .call kind _ arguments _, named => by
    obtain ⟨word, same⟩ := (named _ (by simp)).word kind
    exact .call _ _ word same arguments.ne_nil
      (arguments.speakable (named.mono fun _ member => by simp [member]))

theorem Items.speakable {w : Nat} {tokens : List Token} {terms : List Term} :
    Items w tokens terms → AllNamed tokens → ∀ term ∈ terms, term.Speakable
  | .single item, named => List.forall_mem_singleton.mpr (item.speakable named)
  | .more item _ rest, named =>
    List.forall_mem_cons.mpr ⟨item.speakable (named.mono (by simp)),
      rest.speakable (named.mono (by simp))⟩

end

/-- Whatever is read from a text can be shown and read again. -/
theorem speakable_of_read {text : String} (done : read text = .ok term) : term.Speakable := by
  obtain ⟨tokens, spans, derivation⟩ := phrase_of_read done
  obtain ⟨rest, -, whole, -⟩ := spans.start
  exact derivation.speakable fun token member =>
    Source.named_scan (whole ▸ List.mem_append_left rest member)

end Reading

/-- A string among other arguments is spelled in its place. -/
theorem exists_showsAll_string (value : String) (first : ∀ term ∈ before, term.Shown)
    (second : ∀ term ∈ after, term.Shown) (low : Nat) :
    ∃ high left right, left.length = before.length ∧ right.length = after.length ∧
      ShowsAll low high (before ++ .string value :: after) (left ++ .string value :: right) := by
  induction before generalizing low with
  | nil =>
    cases after with
    | nil => exact ⟨low, [], [], rfl, rfl, .single (shows_string low value)⟩
    | cons next after =>
      obtain ⟨high, right, arity, rest⟩ := exists_showsAll (List.cons_ne_nil _ _) second low
      exact ⟨high, [], right, rfl, arity, .more (shows_string low value) rest⟩
  | cons term before ih =>
    obtain ⟨own, others⟩ := List.forall_mem_cons.mp first
    obtain ⟨middle, shown, _, one⟩ := own low
    obtain ⟨high, left, right, arity, arity', rest⟩ := ih others middle
    exact ⟨high, shown :: left, right, by simp [arity], arity', .more one rest⟩

/-- The text of a call before an argument that stands behind some others. -/
def textBefore (functor : String) (before : List Term) : String :=
  functor ++ "(" ++ String.join (before.map fun term => term.render ++ ", ")

/-- The text of a call behind an argument that stands before some others. -/
def textBehind (after : List Term) : String :=
  String.join (after.map fun term => ", " ++ term.render) ++ ")"

theorem intercalate_around (argument : Term) (before after : List Term) :
    [',', ' '].intercalate ((renderAll (before ++ argument :: after)).map String.toList) =
      before.flatMap (fun term => term.render.toList ++ [',', ' ']) ++ (argument.render.toList ++
        after.flatMap fun term => [',', ' '] ++ term.render.toList) := by
  have behind (first : Term) : [',', ' '].intercalate ((renderAll (first :: after)).map String.toList) =
      first.render.toList ++ after.flatMap fun term => [',', ' '] ++ term.render.toList := by
    induction after generalizing first with
    | nil => simp [renderAll]
    | cons next after ih =>
      have some : (renderAll (next :: after)).map String.toList ≠ [] := by simp [renderAll]
      rw [renderAll, List.map_cons, List.intercalate_cons_of_ne_nil some, ih]
      simp
  induction before with
  | nil => exact behind argument
  | cons term before ih =>
    have some : (renderAll (before ++ argument :: after)).map String.toList ≠ [] := by
      cases before <;> simp [renderAll]
    rw [List.cons_append, renderAll, List.map_cons, List.intercalate_cons_of_ne_nil some, ih]
    simp

section Calls

variable (word : IsWord functor)

include word

theorem render_around (kind : Lexeme.nameKind functor.toList = .functor) (argument : Term) (before after : List Term) :
    (compound functor (before ++ argument :: after)).render =
      textBefore functor before ++ argument.render ++ textBehind after := by
  apply String.toList_injective
  rw [render_call word kind, intercalate_around]
  simp [textBefore, textBehind, String.toList_join, List.flatMap_map]

/-- The text before an argument leaves open no token. -/
theorem tidy_textBefore (shown : ∀ term ∈ before, term.Shown) :
    Tidy (textBefore functor before).toList := by
  have separated : Tidy (before.flatMap fun term => term.render.toList ++ [',', ' ']) := by
    induction before with
    | nil => exact Source.tidy_nil
    | cons term before ih =>
      obtain ⟨own, others⟩ := List.forall_mem_cons.mp shown
      obtain ⟨_, _, _, shows⟩ := own 0
      rw [List.flatMap_cons, List.append_assoc]
      exact shows.whole.neat.tidy.append (tidy_comma (ih others)) (Source.detached_cons (by decide) _)
  have text : (textBefore functor before).toList = functor.toList ++
      '(' :: before.flatMap fun term => term.render.toList ++ [',', ' '] := by
    simp [textBefore, String.toList_join, List.flatMap_map]
  rw [text]
  have opened := separated.punctuation (show ('(', Source.Kind.openParen) ∈ Source.punctuation by decide)
  exact (neat_word word).tidy.append opened (Source.detached_cons (by decide) _)

end Calls

/-- The text of a string is one token, which is terminated, and is read as the string. So it is among
the arguments of a literal: the text before it and the text behind it have the tokens that they have
without it, and the literal is read with the string in its place. -/
theorem string_read (value : String) :
    tokenize (string value).render =
        ⟨[stringToken .start value], finishOf (string value).render⟩ ∧
      read (string value).render = .ok (.string value) ∧
      ∀ {functor : String} {before after : List Term}, IsWord functor →
        Lexeme.nameKind functor.toList = .functor →
        (∀ term ∈ before ++ after, term.Speakable) →
          let literal := compound functor (before ++ .string value :: after)
          let place := Position.start.after (textBefore functor before).toList
          literal.render = textBefore functor before ++ (string value).render ++ textBehind after ∧
            tokenize literal.render =
              ⟨lex .start (textBefore functor before).toList ++ stringToken place value ::
                  lex (place.after (string value).render.toList) (textBehind after).toList,
                finishOf literal.render⟩ ∧
            ∃ left right, left.length = before.length ∧ right.length = after.length ∧
              read literal.render = .ok (.compound functor (left ++ .string value :: right)) := by
  have render : (string value).render = renderString value := rfl
  have alone (position : Position) := lex_renderString value position []
  simp only [List.append_nil, Source.lex_nil] at alone
  refine ⟨by rw [tokenize_eq, render, alone], (shows_string 0 value).read, ?_⟩
  intro functor before after word kind speakable literal place
  obtain ⟨first, second⟩ := List.forall_mem_append.mp fun term member => (speakable term member).shown
  have text := render_around word kind (.string value) before after
  refine ⟨text, ?_, ?_⟩
  · have quoted : ∃ rest, (renderString value).toList ++ (textBehind after).toList = '"' :: rest := by
      rw [renderString, String.toList_ofList]
      exact ⟨_, rfl⟩
    obtain ⟨rest, begins⟩ := quoted
    have split := (tidy_textBefore word first).lex_append
      (Source.detached_cons (show Source.separates '"' = true by decide) rest) (by simp; decide) .start
    rw [← begins] at split
    rw [tokenize_eq, text, String.toList_append, String.toList_append, List.append_assoc, render,
      split, lex_renderString]
  · obtain ⟨_, left, right, arity, arity', shows⟩ := exists_showsAll_string value first second 0
    exact ⟨left, right, arity, arity', (shows.call word kind).read⟩

/-- The string of a quote, a line end and two backslashes between a variable and a number that is read
as a name with a minus sign. -/
theorem string_read_said :
    let value := "\"\n\\\\"
    let before : List Term := [.var ⟨"X", ["3"]⟩]
    let after : List Term := [.number (.float (.infinite true))]
    let literal := compound "said" (before ++ .string value :: after)
    IsWord "said" ∧ Lexeme.nameKind "said".toList = .functor ∧
      (∀ term ∈ before ++ after, term.Speakable) ∧
      literal.render = "said(X, " ++ "\"\\\"\\n\\\\\\\\\"" ++ ", -inf)" ∧
      (tokenize literal.render).tokens =
        lex .start "said(X, ".toList ++ stringToken ⟨8, 1, 9⟩ value :: lex ⟨18, 1, 19⟩ ", -inf)".toList ∧
      ∃ left right, left.length = 1 ∧ right.length = 1 ∧
        read literal.render = .ok (.compound "said" (left ++ .string value :: right)) := by
  intro value before after literal
  have word : IsWord "said" := by decide
  have kind : Lexeme.nameKind "said".toList = .functor := by decide
  have speakable : ∀ term ∈ before ++ after, term.Speakable := by
    intro term member
    rcases List.mem_pair.mp member with rfl | rfl
    · exact .variableName "X" ["3"] (by decide) (by decide)
    · exact .number _ rfl
  obtain ⟨text, tokens, reads⟩ := (string_read value).2.2 word kind speakable
  have opening : textBefore "said" before = "said(X, " := by decide +kernel
  have closing : textBehind after = ", -inf)" := by decide +kernel
  have place : Position.start.after "said(X, ".toList = ⟨8, 1, 9⟩ := by decide +kernel
  have behind : Position.after ⟨8, 1, 9⟩ (string value).render.toList = ⟨18, 1, 19⟩ := by
    decide +kernel
  rw [opening, closing, place, behind] at tokens
  exact ⟨word, kind, speakable, text.trans (by decide +kernel),
    congrArg Source.Tokens.tokens tokens, reads⟩

end Term

end AgentSpeak
