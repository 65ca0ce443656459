import AgentSpeak.Proofs.Number.Spelling
import AgentSpeak.Proofs.Term.Regrouping
import AgentSpeak.Proofs.Term.Writing

/-!
The texts of terms and the phrases that they spell. The text of a term spells the term as it groups
it, by itself and in each place where it is printed: as an operand, as the base of a power, and as the
rest of a list.
-/

namespace AgentSpeak

open Source (Token Kind Lexeme Neat Detached Sign wildcards)

namespace Term

/-- The phrases that bind as tightly as a place of an operator asks. -/
def Fills : Nat → Nat → List Token → Term → Prop
  | 0 | 1 => Expression
  | 2 => Product
  | 3 => Power
  | _ => Signed

/-- Tokens that follow some items of a list up to its closing bracket, and the list that they go on
with. -/
def Rest (w : Nat) (tokens : List Token) (tail : Term) : Prop :=
  ∀ (v : Nat) (opening : Token) (before : List Token) (items : List Term),
    opening.kind = .openBracket → Items v before items → w = v + wildcards before →
    Primary v (opening :: (before ++ tokens)) (ofList items tail)

variable {low middle high : Nat} {term left right head tail value : Term} {text : List Char}
  {raise : Term → Term}

theorem Fills.lower {w place lower : Nat} {tokens : List Token} (fills : Fills place w tokens term)
    (less : lower ≤ place) : Fills lower w tokens term := by
  induction less with
  | refl => exact fills
  | @step place _ ih =>
    refine ih ?_
    match place with
    | 0 => exact fills
    | 1 => exact Expression.single fills
    | 2 => exact Product.single fills
    | 3 => exact Power.single fills
    | _ + 4 => exact fills

theorem rest_closed {w : Nat} {closing : Token} (kind : closing.kind = .closeBracket) :
    Rest w [closing] nil :=
  fun _ _ _ _ opened items _ => .list opened items kind

theorem rest_tail {w : Nat} {tokens : List Token} {bar closing : Token} (kind : bar.kind = .bar)
    (inner : Expression w tokens tail) (closed : closing.kind = .closeBracket) :
    Rest w (bar :: (tokens ++ [closing])) tail := by
  rintro v opening before items opened first rfl
  have whole := Primary.listTail opened first kind inner closed
  rwa [List.append_assoc] at whole

theorem Items.snoc {w : Nat} {before after : List Token} {comma : Token} {terms : List Term}
    (kind : comma.kind = .comma) : Items w before terms →
      Expression (w + wildcards before) after term →
      Items w (before ++ comma :: after) (terms ++ [term])
  | .single item, last => .more item kind (.single last)
  | .more item kind' rest, last => by
    rw [Source.wildcards_joined (kind' ▸ by decide), ← Nat.add_assoc] at last
    rw [List.append_assoc, List.cons_append]
    exact .more item kind' (rest.snoc kind last)

theorem rest_more {w : Nat} {before after : List Token} {comma : Token}
    (kind : comma.kind = .comma) (item : Expression w before head)
    (rest : Rest (w + wildcards before) after tail) :
    Rest w (comma :: (before ++ after)) (cons head tail) := by
  rintro v opening first items opened others rfl
  have joined := others.snoc kind item
  have count : v + wildcards (first ++ comma :: before) =
      v + wildcards first + wildcards before := by
    rw [Source.wildcards_joined (kind ▸ by decide), Nat.add_assoc]
  have whole := rest v opening _ _ opened joined count.symm
  rw [ofList, List.foldr_append] at whole
  rwa [List.append_assoc] at whole

section Constants

variable {w : Nat}

theorem spells_word {α : Type} {derives : Nat → List Token → α → Prop} {name : String} {value : α}
    (word : IsWord name) (each : ∀ token : Token, token.kind = Lexeme.nameKind name.toList →
      String.ofList token.text = name → Counted derives low high [token] value) :
    Spells derives low high name.toList value := by
  have seen : ∀ kind ∈ Lexeme.nameKinds, kind.isTrivia = false := by decide
  have neat := neat_word word
  have spelled : ∀ token : Token, token.text = name.toList → String.ofList token.text = name :=
    fun token same => by rw [same, String.ofList_toList]
  obtain ⟨c, rest, text, start, others⟩ := first_word word
  rw [text] at neat each spelled ⊢
  exact spells_token (Source.next_word start others) neat (seen _ (Lexeme.nameKind_mem _))
    fun token kind same => each token kind (spelled token same)

theorem spells_numberText {value : Number} (number : IsNumberText text)
    (read : Number.read? text = some value) : Spells Primary w w text (.number value) := by
  obtain ⟨c, rest, rfl, -⟩ := number.first
  refine spells_token number.next number.neat rfl fun token kind same => ?_
  exact counted_token kind (.number kind (same ▸ read))

/-- The text of a phrase behind a minus sign. -/
theorem Spells.minus {α β : Type} {derives : Nat → List Token → α → Prop}
    {derives' : Nat → List Token → β → Prop} {value : α} {whole : β}
    (inner : Spells derives low high text value)
    (begin : ∀ (token : Token) tokens, token.kind = .minus → derives low tokens value →
      derives' low (token :: tokens) whole) : Spells derives' low high ('-' :: text) whole := by
  have plain : Kind.minus ≠ .wildcard := by decide
  refine inner.behind inner.neat.minus (fun position => ?_) plain begin
  exact ⟨_, _, rfl, Source.scan_token (Source.next_minus inner.neat.noPlus) rfl position⟩

theorem spells_number {value : Number} (writable : value.isWritable = true)
    (exact : ∀ x, value = .float x → x.ReadsBack) :
    Spells Signed w w value.render.toList (.number value) := by
  obtain ⟨text, found, number, read, ⟨render, rfl⟩ | ⟨render, rfl⟩⟩ :=
    Number.exists_text writable exact
  · rw [render]
    exact (spells_numberText number read).mono fun _ => .single
  · rw [render]
    exact (spells_numberText number read).minus fun _ _ kind inner => .folded kind (.single inner)

theorem unescape_escaped (text : List Char) : unescape (text.flatMap escapeChar) = text := by
  induction text with
  | nil => rfl
  | cons c text ih =>
    rw [List.flatMap_cons, escapeChar.eq_1 c]
    split
    next same => rw [same]; simp [unescape, unescapeChar, ih]
    next noBackslash =>
      split
      next same => rw [same]; simp [unescape, unescapeChar, ih]
      next =>
        split
        next same => rw [same]; simp [unescape, unescapeChar, ih]
        next => simp [unescape, noBackslash, ih]

theorem spells_string (value : String) :
    Spells Primary w w (renderString value).toList (.string value) := by
  have neat := neat_renderString value
  rw [renderString, String.toList_ofList] at neat ⊢
  refine spells_token (next_string value) neat rfl fun token kind same => counted_token kind ?_
  have inside : (token.text.drop 1).dropLast = value.toList.flatMap escapeChar := by
    rw [same]
    exact List.dropLast_concat
  have derivation : Primary w [token] _ := .string kind
  rwa [inside, unescape_escaped, String.ofList_toList] at derivation

end Constants

/-- The sign of an operator, set off by spaces. -/
def signOf (operator : Operator) : List Char :=
  ' ' :: (operator.functor.toList ++ [' '])

theorem sign_functor (operator : Operator) : Sign operator.kind (signOf operator) where
  apart := ⟨' ', _, rfl, by decide⟩
  tidy tidy := by
    rw [signOf, List.cons_append, List.append_assoc]
    exact ((tidy_functor operator).append tidy.space (Source.detached_space _)).space
  scanned position more := by
    have single : ∀ position, Source.visible position operator.functor.toList =
        [⟨operator.kind, operator.functor.toList, position, true⟩] := by
      intro position
      obtain ⟨c, rest, text, next⟩ := next_functor operator
      rw [text, Source.visible_token next (by cases operator <;> decide)]
      rfl
    have seen : operator.kind.isTrivia = false := by cases operator <;> rfl
    have tokens := Source.scan_between (tidy_functor operator) single seen position more
    rw [signOf, List.cons_append, List.append_assoc]
    exact ⟨_, rfl, tokens⟩

/-- The phrase of an operator other than the power is put together from those that fill its two
places. -/
theorem fills_binary {operator : Operator} (noPower : operator ≠ .power) {w : Nat} {token : Token}
    {before after : List Token} (kind : token.kind = operator.kind)
    (first : Fills operator.precedence w before left)
    (second : Fills (operator.precedence + 1) (w + wildcards before) after right) :
    Fills operator.precedence w (before ++ token :: after)
      (.compound operator.functor [left, right]) := by
  cases operator with
  | add | sub => exact Expression.sum first (by rw [kind]; decide) second
  | mul | quotient | floorQuotient | modulo =>
    exact Product.product first (by rw [kind]; decide) second
  | power => exact absurd rfl noPower

/-- The text of a term spells another term: by itself, as the base of a power, and behind the items of
a list. As a base it gives the exponent behind it its place in `raise`. -/
structure Shows (low high : Nat) (term value : Term) (raise : Term → Term) : Prop where
  whole : Spells (Fills (term.precedence?.getD 4)) low high term.render.toList value
  raised : ∀ {last : Nat} {after : List Char} {exponent : Term},
    Spells Power high last after exponent →
    Spells Power low last ((renderOperand 3 term term.render).toList ++
      (signOf .power ++ after)) (raise exponent)
  rest : Spells Rest low high ((renderTail term).toList ++ [']']) value
  apart : Detached ((renderTail term).toList ++ [']'])

/-- The power of a term to an exponent. -/
def toPower (base exponent : Term) : Term :=
  .compound "**" [base, exponent]

theorem Spells.expression {place : Nat} (whole : Spells (Fills place) low high text term) :
    Spells Expression low high text term :=
  whole.mono fun _ fills => fills.lower (Nat.zero_le place)

/-- A phrase in parentheses fills every place. -/
theorem Spells.grouped (inner : Spells Expression low high text term) :
    Spells Signed low high ('(' :: (text ++ [')'])) term := by
  have opening : Sign .openParen ['('] := Source.sign_punctuation (by decide)
  have closing : Sign .closeParen [')'] := Source.sign_punctuation (by decide)
  exact inner.enclosed opening closing (by decide) (by decide)
    fun _ _ _ opened closed inner => .single (.group opened inner closed)

/-- An operand's text fills its place. -/
theorem spells_operand {place : Nat} (inside : place ≤ 4)
    (whole : Spells (Fills (term.precedence?.getD 4)) low high term.render.toList value) :
    Spells (Fills place) low high (renderOperand place term term.render).toList value := by
  unfold renderOperand
  split
  next precedence found =>
    rw [found, Option.getD_some] at whole
    split
    next =>
      have text : ("(" ++ term.render ++ ")").toList = '(' :: (term.render.toList ++ [')']) := by
        simp
      have grouped : Spells (Fills 4) low high _ _ := whole.expression.grouped
      rw [text]
      exact grouped.mono fun _ fills => fills.lower inside
    next fits => exact whole.mono fun _ fills => fills.lower (Nat.le_of_not_lt fits)
  next found =>
    rw [found, Option.getD_none] at whole
    exact whole.mono fun _ fills => fills.lower inside

/-- As the base of a power only a power has no parentheses of its own. -/
theorem renderOperand_of_single (single : term.isPower = false) (text : String) :
    renderOperand 3 term text = renderOperand 4 term text := by
  have loose : ∀ precedence ∈ term.precedence?, precedence < 3 := by
    intro precedence found
    unfold precedence? at found
    split at found
    next functor left right =>
      obtain ⟨operator, known, rfl⟩ := Option.map_eq_some_iff.mp found
      obtain rfl := Operator.functor_of_ofFunctor? known
      cases operator with
      | power => cases single
      | _ => decide
    next => cases found
  unfold renderOperand
  split
  next precedence found =>
    have less := loose precedence found
    rw [if_pos less, if_pos (Nat.lt_succ_of_lt less)]
  next => rfl

/-- A base that is no power keeps the exponent behind it. -/
theorem spells_raised (term : Term)
    (whole : Spells (Fills (term.precedence?.getD 4)) low high term.render.toList value)
    (single : term.isPower = false) {last : Nat} {after : List Char} {exponent : Term}
    (spelled : Spells Power high last after exponent) :
    Spells Power low last ((renderOperand 3 term term.render).toList ++ (signOf .power ++ after))
      (value.toPower exponent) := by
  have base : Spells Signed low high _ _ := spells_operand (Nat.le_refl 4) whole
  rw [renderOperand_of_single single]
  exact base.joined spelled (sign_functor .power) (by decide)
    fun _ _ _ kind first second => .power first kind second

section Tails

variable (bar : renderTail term = " | " ++ term.render)
  (whole : Spells (Fills (term.precedence?.getD 4)) low high term.render.toList value)

include bar whole

/-- Behind the items of a list a term that is no list stands behind a bar. -/
theorem spells_bar :
    Spells Rest low high ((renderTail term).toList ++ [']']) value ∧
      Detached ((renderTail term).toList ++ [']']) := by
  have sign : Sign .bar [' ', '|', ' '] :=
    (Source.sign_punctuation (show ('|', Kind.bar) ∈ _ by decide)).offset.spaced
  have closing : Sign .closeBracket [']'] := Source.sign_punctuation (by decide)
  have text : (renderTail term).toList ++ [']'] =
      [' ', '|', ' '] ++ (term.render.toList ++ [']']) := by simp [bar]
  rw [text]
  refine ⟨?_, sign.detached _⟩
  exact whole.expression.enclosed sign closing (by decide) (by decide)
    fun _ _ _ barred closed inner => rest_tail barred inner closed

/-- A term that is neither a power nor a list is shown by itself wherever it stands. -/
theorem shows_single (single : term.isPower = false) : Shows low high term value value.toPower where
  whole := whole
  raised spelled := spells_raised term whole single spelled
  rest := (spells_bar bar whole).1
  apart := (spells_bar bar whole).2

end Tails

section Words

variable {w : Nat} {name : String} (word : IsWord name)

include word

theorem shows_word (derives : ∀ token : Token, token.kind = Lexeme.nameKind name.toList →
    String.ofList token.text = name → Literal w [token] (.atom name))
    (solid : Lexeme.nameKind name.toList ≠ .wildcard) :
    Shows w w (.atom name) (.atom name) (toPower (.atom name)) := by
  have noNil : name ≠ "[]" := word.ne
  refine shows_single (by simp [renderTail, render, noNil]) ?_ rfl
  refine spells_word word fun token same text => ?_
  exact counted_token same (.single (.literal (derives token same text))) solid

theorem shows_functor (kind : Lexeme.nameKind name.toList = .functor) :
    Shows w w (.atom name) (.atom name) (toPower (.atom name)) := by
  refine shows_word word (fun token same text => ?_) (kind ▸ by decide)
  exact text ▸ .name (same.trans kind)

/-- A variable is shown by its name alone, whatever marks it has. -/
theorem shows_variableName (kind : Lexeme.nameKind name.toList = .variableName)
    (marks : List String) :
    Shows w w (.var ⟨name, marks⟩) (.var ⟨name, []⟩) (toPower (.var ⟨name, []⟩)) := by
  refine shows_single rfl (spells_word word fun token same text => ?_) rfl
  obtain rfl : String.ofList token.text = name := text
  exact counted_token (same.trans kind) (.single (.variableName (same.trans kind)))

end Words

theorem shows_truth (w : Nat) : Shows w w truth truth (toPower truth) :=
  shows_word (by decide) (fun _ same _ => .truth same) (by decide)

theorem shows_falsity (w : Nat) : Shows w w falsity falsity (toPower falsity) :=
  shows_word (by decide) (fun _ same _ => .falsity same) (by decide)

/-- Each wildcard that is shown is the next one of its text. -/
theorem shows_wildcard (w : Nat) (marks : List String) :
    Shows w (w + 1) (.var ⟨"_", marks⟩) (.var (.wildcard (w + 1)))
      (toPower (.var (.wildcard (w + 1)))) := by
  have word : IsWord "_" := by decide
  have spelled : Spells Signed w (w + 1) "_".toList (.var (.wildcard (w + 1))) := by
    refine spells_word word fun token same _ => ?_
    have kind : token.kind = .wildcard := same
    exact ⟨congrArg (w + ·) (Source.wildcards_cons_of_eq kind []).symm, .single (.wildcard kind)⟩
  exact shows_single rfl spelled rfl

theorem shows_number {w : Nat} {value : Number} (writable : value.isWritable = true)
    (exact : ∀ x, value = .float x → x.ReadsBack) :
    Shows w w (.number value) (.number value) (toPower (.number value)) :=
  shows_single rfl (spells_number writable exact) rfl

theorem shows_string (w : Nat) (value : String) :
    Shows w w (.string value) (.string value) (toPower (.string value)) :=
  have spelled : Spells Signed w w _ _ := (spells_string value).mono fun _ => .single
  shows_single rfl spelled rfl

theorem shows_nil (w : Nat) : Shows w w nil nil nil.toPower := by
  have plain : Kind.openBracket ≠ .wildcard ∧ Kind.closeBracket ≠ .wildcard := by decide
  have closing : Spells (fun _ tokens (_ : Unit) => ∃ token : Token,
      tokens = [token] ∧ token.kind = .closeBracket) w w [']'] () :=
    spells_token (Source.next_punctuation (show (']', Kind.closeBracket) ∈ _ by decide) [])
      ⟨tidy_closing (show (']', Kind.closeBracket) ∈ _ by decide), by simp, by simp⟩ rfl
      fun token kind _ => counted_token kind ⟨token, rfl, kind⟩
  have opening : Sign .openBracket ['['] := Source.sign_punctuation (by decide)
  have whole : Spells Signed w w ['[', ']'] nil := by
    refine closing.begun opening plain.1 ?_
    rintro token _ kind ⟨closing, rfl, kind'⟩
    exact .single (.nil kind kind')
  refine ⟨whole, fun spelled => spells_raised nil whole rfl spelled, closing.mono ?_,
    Source.detached_cons (by decide) []⟩
  rintro _ ⟨token, rfl, kind⟩
  exact rest_closed kind

section Pairs

variable {first second : Term} {raiseFirst raiseSecond : Term → Term}

/-- A list is shown by its items, whatever ends it. -/
theorem Shows.cons (one : Shows low middle head first raiseFirst)
    (other : Shows middle high tail second raiseSecond) :
    Shows low high (cons head tail) (cons first second) (cons first second).toPower := by
  have plain : Kind.openBracket ≠ .wildcard ∧ Kind.comma ≠ .wildcard := by decide
  have opening : Sign .openBracket ['['] := Source.sign_punctuation (by decide)
  have comma : Sign .comma [',', ' '] :=
    (Source.sign_punctuation (show (',', Kind.comma) ∈ _ by decide)).spaced
  have inside : Spells (fun w tokens (ends : Term × Term) => ∃ before after,
      tokens = before ++ after ∧ Expression w before ends.1 ∧
        Rest (w + wildcards before) after ends.2) low high (head.render.toList ++ ((renderTail tail).toList ++ [']']))
      (first, second) :=
    one.whole.expression.append other.rest other.apart fun before after item rest =>
      ⟨before, after, rfl, item, rest⟩
  have whole : Spells Signed low high (Term.cons head tail).render.toList
      (Term.cons first second) := by
    have text : (Term.cons head tail).render.toList =
        ['['] ++ (head.render.toList ++ ((renderTail tail).toList ++ [']'])) := by
      simp [Term.cons, render]
    rw [text]
    refine inside.begun opening plain.1 ?_
    rintro token _ kind ⟨before, after, rfl, item, rest⟩
    exact .single (rest low token before [first] kind (.single item) rfl)
  have text : (renderTail (Term.cons head tail)).toList ++ [']'] =
      [',', ' '] ++ (head.render.toList ++ ((renderTail tail).toList ++ [']'])) := by
    simp [Term.cons, renderTail]
  refine ⟨whole, fun spelled => spells_raised (Term.cons head tail) whole rfl spelled, ?_,
    text ▸ comma.detached _⟩
  rw [text]
  refine inside.begun comma plain.2 ?_
  rintro token _ kind ⟨before, after, rfl, item, rest⟩
  exact rest_more kind item rest

end Pairs

section Operators

theorem render_binary (operator : Operator) (left right : Term) :
    (compound operator.functor [left, right]).render.toList =
      (renderOperand operator.precedence left left.render).toList ++ (signOf operator ++
        (renderOperand (operator.precedence + 1) right right.render).toList) := by
  rw [render_compound (by cases operator <;> decide)]
  simp [renderCompound, renderAll, signOf]

theorem isPower_binary {operator : Operator} (noPower : operator ≠ .power) (left right : Term) :
    (compound operator.functor [left, right]).isPower = false := by
  cases operator with
  | power => exact absurd rfl noPower
  | _ => rfl

variable {first second : Term} {raiseFirst raiseSecond : Term → Term}
  (one : Shows low middle left first raiseFirst) (other : Shows middle high right second raiseSecond)

include one other

theorem Shows.binary {operator : Operator} (noPower : operator ≠ .power) :
    Shows low high (.compound operator.functor [left, right])
      (.compound operator.functor [first, second])
      (toPower (.compound operator.functor [first, second])) := by
  refine shows_single (renderTail_compound (by cases operator <;> decide)) ?_
    (isPower_binary noPower left right)
  have precedence : (compound operator.functor [left, right]).precedence?.getD 4 =
      operator.precedence := by simp [precedence?]
  have low : operator.precedence + 1 ≤ 4 := by cases operator <;> decide
  rw [precedence, render_binary]
  refine (spells_operand (Nat.le_of_succ_le low) one.whole).joined
    (spells_operand low other.whole) (sign_functor operator) (by cases operator <;> decide) ?_
  exact fun _ _ _ kind left right => fills_binary noPower kind left right

/-- The exponent of a power takes what stands behind the power for an exponent of its own. -/
theorem Shows.power : Shows low high (.compound "**" [left, right]) (raiseFirst second)
    fun exponent => raiseFirst (second.toPower exponent) := by
  have exponent : Spells Signed middle high _ _ := spells_operand (Nat.le_refl 4) other.whole
  have text : (compound "**" [left, right]).render.toList =
      (renderOperand 3 left left.render).toList ++ (signOf .power ++
        (renderOperand 4 right right.render).toList) := render_binary .power left right
  have whole : Spells Power low high (compound "**" [left, right]).render.toList
      (raiseFirst second) := by
    rw [text]
    exact one.raised (exponent.mono fun _ => .single)
  have bar : renderTail (compound "**" [left, right]) = " | " ++ _ :=
    renderTail_compound (by decide)
  have tails := spells_bar bar whole
  refine ⟨whole, fun {last after power} spelled => ?_, tails.1, tails.2⟩
  have behind : Spells Power middle last _ _ :=
    exponent.joined spelled (sign_functor .power) (by decide)
      fun _ _ _ kind first second => .power first kind second
  have loose : renderOperand 3 (compound "**" [left, right]) (compound "**" [left, right]).render =
      (compound "**" [left, right]).render := rfl
  rw [loose, text, List.append_assoc, List.append_assoc]
  exact one.raised behind

end Operators

theorem render_minus (operand : Term) : (compound "-" [operand]).render.toList =
    '-' :: (renderOperand 4 operand operand.render).toList := by
  rw [render_compound (by decide)]
  simp [renderCompound, renderAll, Operator.ofFunctor?]

/-- What is shown behind a minus sign is negated; a number takes the sign itself. -/
theorem Shows.minus (inner : Shows low high term value raise) :
    Shows low high (.compound "-" [term]) value.negate value.negate.toPower := by
  have operand : Spells Signed low high _ _ := spells_operand (Nat.le_refl 4) inner.whole
  refine shows_single (renderTail_compound (by decide)) ?_ rfl
  rw [render_minus]
  refine operand.minus fun token tokens kind signed => ?_
  cases value with
  | number value => exact .folded kind signed
  | _ => exact .minus kind signed (by rintro _ ⟨⟩)

/-- Terms that are shown after one another, at least one. -/
inductive ShowsAll : Nat → Nat → List Term → List Term → Prop where
  | single {low high : Nat} {term value : Term} {raise : Term → Term}
      (shows : Shows low high term value raise) : ShowsAll low high [term] [value]
  | more {low middle high : Nat} {term value : Term} {terms values : List Term}
      {raise : Term → Term} (first : Shows low middle term value raise)
      (rest : ShowsAll middle high terms values) :
      ShowsAll low high (term :: terms) (value :: values)

section Calls

variable {terms values : List Term} {functor : String}

/-- The text of some terms between commas. -/
theorem ShowsAll.spells (shows : ShowsAll low high terms values) :
    Spells Items low high ([',', ' '].intercalate ((renderAll terms).map String.toList)) values := by
  have comma : Sign .comma [',', ' '] :=
    (Source.sign_punctuation (show (',', Kind.comma) ∈ _ by decide)).spaced
  induction shows with
  | @single low high term value raise shows =>
    have text : [',', ' '].intercalate ((renderAll [term]).map String.toList) =
        term.render.toList := by simp [renderAll]
    rw [text]
    exact shows.whole.expression.mono fun _ single => .single single
  | @more low middle high term value terms values raise first rest ih =>
    have some : (renderAll terms).map String.toList ≠ [] := by cases rest <;> simp [renderAll]
    have text : [',', ' '].intercalate ((renderAll (term :: terms)).map String.toList) =
        term.render.toList ++
          ([',', ' '] ++ [',', ' '].intercalate ((renderAll terms).map String.toList)) := by
      rw [renderAll, List.map_cons, List.intercalate_cons_of_ne_nil some, List.append_assoc]
    rw [text]
    exact first.whole.expression.joined ih comma (by decide)
      fun _ _ _ kind item rest => .more item kind rest

theorem isPower_call (word : IsWord functor) (arguments : List Term) :
    (compound functor arguments).isPower = false := by
  cases power : (compound functor arguments).isPower with
  | false => rfl
  | true =>
    obtain ⟨_, _, same, -⟩ := power_parts power
    exact absurd same word.ne

variable (word : IsWord functor) (kind : Lexeme.nameKind functor.toList = .functor)

include word kind

theorem ofFunctor?_of_word : Operator.ofFunctor? functor = none := by
  cases found : Operator.ofFunctor? functor with
  | none => rfl
  | some operator =>
    obtain rfl := Operator.functor_of_ofFunctor? found
    cases operator with
    | floorQuotient | modulo => exact absurd kind (by decide)
    | add | sub | mul | quotient | power => exact absurd word (by decide)

theorem render_call (arguments : List Term) : (compound functor arguments).render.toList =
    functor.toList ++ (['('] ++
      ([',', ' '].intercalate ((renderAll arguments).map String.toList) ++ [')'])) := by
  have none := ofFunctor?_of_word word kind
  have text : renderCompound functor arguments (renderAll arguments) =
      functor ++ "(" ++ ", ".intercalate (renderAll arguments) ++ ")" := by
    unfold renderCompound
    split
    next found _ => cases none.symm.trans found
    next found _ => cases none.symm.trans found
    next => rfl
  rw [render_compound word.ne, text]
  simp [String.toList_intercalate]

theorem precedence?_call (arguments : List Term) :
    (compound functor arguments).precedence? = none := by
  unfold precedence?
  split
  next same =>
    cases same
    rw [ofFunctor?_of_word word kind]
    rfl
  next => rfl

/-- A call is shown by its name and the texts of its arguments. -/
theorem ShowsAll.call (arguments : ShowsAll low high terms values) :
    Shows low high (.compound functor terms) (.compound functor values)
      (toPower (.compound functor values)) := by
  have name : Spells (fun _ tokens name => ∃ token : Token, tokens = [token] ∧
      token.kind = .functor ∧ String.ofList token.text = name) low low functor.toList functor :=
    spells_word word fun token same text =>
      counted_token (same.trans kind) ⟨token, rfl, same.trans kind, text⟩
  have opening : Sign .openParen ['('] := Source.sign_punctuation (by decide)
  have closing : Sign .closeParen [')'] := Source.sign_punctuation (by decide)
  have inside : Spells (fun w tokens terms => ∃ (opening closing : Token) (inner : List Token),
      tokens = opening :: (inner ++ [closing]) ∧ opening.kind = .openParen ∧
        closing.kind = .closeParen ∧ Items w inner terms) low high _ values :=
    arguments.spells.enclosed opening closing (by decide) (by decide)
      fun opening closing inner opened closed items =>
        ⟨opening, closing, inner, rfl, opened, closed, items⟩
  refine shows_single (renderTail_compound word.ne) ?_ (isPower_call word terms)
  rw [precedence?_call word kind, render_call word kind]
  refine name.append inside (opening.detached _) ?_
  rintro _ _ ⟨token, rfl, named, rfl⟩ ⟨_, _, inner, rfl, opened, closed, items⟩
  rw [Source.wildcards_cons_of_ne (named ▸ by decide)] at items
  exact .single (.literal (.call named opened items closed))

end Calls

/-- The text of a term spells the term as it groups it. -/
abbrev Printed (low high : Nat) (term : Term) : Prop :=
  Shows low high term term.regroup term.raise

theorem raise_eq_toPower (single : term.isPower = false) : term.raise = term.regroup.toPower :=
  funext (raise_of_single single)

theorem Shows.printed (shows : Shows low high term value value.toPower)
    (single : term.isPower = false) (same : term.regroup = value) : Printed low high term := by
  rw [Printed, raise_eq_toPower single, same]
  exact shows

/-- A list is shown by its items, whatever ends it. -/
theorem printed_pair (first : Shows low middle head head.regroup raise) (second : Printed middle high tail) :
    Printed low high (cons head tail) :=
  (first.cons second).printed rfl (regroup_compound rfl)

section Operators

variable (first : Printed low middle left) (second : Printed middle high right)

include first second

theorem printed_binary {operator : Operator} (noPower : operator ≠ .power) :
    Printed low high (.compound operator.functor [left, right]) :=
  have single := isPower_binary noPower left right
  (first.binary second noPower).printed single (regroup_compound single)

theorem printed_power : Printed low high (.compound "**" [left, right]) := by
  have shows := first.power second
  have raises : (compound "**" [left, right]).raise =
      fun exponent => left.raise (right.regroup.toPower exponent) :=
    funext (raise_power left right)
  rwa [Printed, regroup_power, raises]

end Operators

theorem printed_minus (inner : Printed low high term) (unlike : ∀ value, term ≠ .number value) :
    Printed low high (.compound "-" [term]) := by
  have shows := inner.minus
  rw [negate_of_ne_number (regroup_ne_number unlike)] at shows
  exact shows.printed rfl (regroup_compound rfl)

end Term

end AgentSpeak
