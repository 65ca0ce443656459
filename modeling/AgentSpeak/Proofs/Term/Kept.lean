import AgentSpeak.Proofs.Source.Taking
import AgentSpeak.Proofs.Term.Numbering
import AgentSpeak.Proofs.Term.Quoting

namespace AgentSpeak

open Source (Token Kind Position Lexeme Tidy Detached Front Leads Starts scan edge wildcards
  formed_of_kind)
open Source.Parser
open Renames (Distinct Renumbered)

theorem Source.Tidy.formed_scan {text : List Char} {position : Position} (tidy : Tidy text) :
    ∀ token ∈ scan position text, token.problem? = none := by
  intro token member
  rw [scan_eq_filter] at member
  exact (tidy position token (List.mem_of_mem_filter member)).formed

/-- A tidy text begins with its own first token, if what stands behind carries none on. -/
theorem Source.Tidy.starts {kinds others : List Kind} {text rest : List Char} {demand : Source.Demand}
    (tidy : Tidy text) (begins : ∀ position, Term.Begins kinds (scan position text))
    (leads : Leads others rest demand) : Starts kinds (text ++ rest) demand := by
  intro position more finish asked
  have front := leads (position.after text) more finish (Position.after_append .. ▸ asked)
  obtain ⟨token, tokens, scanned, listed⟩ := begins position
  rw [List.append_assoc, tidy.scan_append front.detached, scanned]
  exact listed

namespace Term

/-- From each count of wildcards on, the text of a term spells the term with other numbers for its
wildcards. -/
def Kept (term : Term) : Prop :=
  ∀ low, ∃ high value raise, Shows low high term value raise ∧ Renumbered term value

variable {w low : Nat} {tokens : List Token} {term other : Term} {terms arguments : List Term}
  {name : String}

/-- The grammar is unambiguous. -/
theorem Expression.unique (first : Expression w tokens term) (second : Expression w tokens other)
    (formed : ∀ token ∈ tokens, token.problem? = none) : term = other := by
  have last : (edge [] (Source.finishOf "")).kind ∉ expressionCarriers := by decide
  have one := first.parsed formed [] (Source.finishOf "") rfl last
  have another := second.parsed formed [] (Source.finishOf "") rfl last
  cases one.symm.trans another
  rfl

/-- Behind the word for truth at its beginning, a term goes on with an operator. -/
theorem Expression.carried {first second : Token}
    (derivation : Expression w (first :: second :: tokens) term) (truth : first.kind = .trueWord)
    (formed : ∀ token ∈ first :: second :: tokens, token.problem? = none) :
    second.kind ∈ expressionCarriers := by
  by_contra stops
  have word : Expression w [first] Term.truth := .single (.single (.single (.single (.literal (.truth truth)))))
  have alone := word.parsed (fun token member => formed token (by simp_all)) (second :: tokens)
    (Source.finishOf "") (formed second (by simp)) stops
  have last : (edge [] (Source.finishOf "")).kind ∉ expressionCarriers := by decide
  have whole := derivation.parsed formed [] (Source.finishOf "") rfl last
  rw [List.append_nil] at whole
  cases alone.symm.trans whole

/-- A term that is read back from its own text by itself is kept. -/
theorem Speakable.kept (speakable : term.Speakable) (survives : term.Survives) : term.Kept := by
  intro low
  obtain ⟨_, first, _, alone⟩ := speakable.shown 0
  obtain ⟨high, value, raise, shows⟩ := speakable.shown low
  obtain ⟨same, done, g, -, rfl⟩ := survives
  cases done.symm.trans alone.read
  have spelled := shows.whole.expression
  have derivation := (alone.whole.expression.counted .start).2.recount low
  have equal := derivation.unique (spelled.counted .start).2 spelled.neat.tidy.formed_scan
  refine ⟨high, value, raise, shows, fun n => g n - 0 + low, ?_⟩
  rw [← equal, recount, rename_rename]
  exact rename_congr fun v _ => Variable.renumber_renumber g _ v

/-- Kept terms that share no wildcard are kept one behind another. -/
theorem exists_showsAll_renumbered (some : terms ≠ []) (each : ∀ term ∈ terms, term.Kept)
    (distinct : Distinct terms) (low : Nat) :
    ∃ high values, ShowsAll low high terms values ∧ Renumbered terms values := by
  induction terms generalizing low with
  | nil => exact absurd rfl some
  | cons term terms ih =>
    obtain ⟨own, others⟩ := List.forall_mem_cons.mp each
    obtain ⟨middle, value, _, first, renumbered⟩ := own low
    cases terms with
    | nil =>
      have none : Renumbered ([] : List Term) [] := ⟨id, rfl⟩
      exact ⟨middle, [value], .single first, renumbered.cons none distinct⟩
    | cons next terms =>
      have parts : Distinct (term, next :: terms) := distinct
      obtain ⟨high, values, rest, renumbered'⟩ :=
        ih (List.cons_ne_nil _ _) others (Renames.distinct_pair_iff.mp parts).2.1 middle
      exact ⟨high, value :: values, .more first rest, renumbered.cons renumbered' distinct⟩

/-- A call keeps what it is if its arguments do. -/
theorem kept_call (word : IsWord name) (kind : Lexeme.nameKind name.toList = .functor)
    (each : ∀ argument ∈ arguments, argument.Kept) (distinct : Distinct arguments) :
    (literal name arguments).Kept := by
  intro low
  cases arguments with
  | nil => exact ⟨low, _, _, shows_functor word kind, id, (rename_atom _ _).symm⟩
  | cons argument arguments =>
    obtain ⟨high, values, shows, f, rfl⟩ :=
      exists_showsAll_renumbered (List.cons_ne_nil _ _) each distinct low
    exact ⟨high, _, _, shows.call word kind, f, (rename_compound _ _ _).symm⟩

/-- A literal as the grammar knows it. -/
inductive Callable : Term → Prop where
  | truth : Callable truth
  | falsity : Callable falsity
  | call (name : String) (arguments : List Term) (word : IsWord name)
      (kind : Lexeme.nameKind name.toList = .functor)
      (each : ∀ argument ∈ arguments, argument.Speakable) : Callable (literal name arguments)

/-- A literal that begins with a name is a call. -/
theorem Literal.called (derivation : Literal w tokens term) (named : AllNamed tokens)
    (first : ∀ token ∈ tokens.head?, token.kind = .functor) :
    ∃ name arguments, term = literal name arguments ∧ IsWord name ∧
      Lexeme.nameKind name.toList = .functor ∧ ∀ argument ∈ arguments, argument.Speakable := by
  cases derivation with
  | truth kind | falsity kind => cases (first _ rfl).symm.trans kind
  | name kind | empty kind =>
    obtain ⟨word, same⟩ := (named _ (by simp)).word kind
    exact ⟨_, [], rfl, word, same, nofun⟩
  | call kind opened items closed =>
    obtain ⟨word, same⟩ := (named _ (by simp)).word kind
    have each := items.speakable (named.mono fun _ member => by simp [member])
    exact ⟨_, _, (items.literal_eq _).symm, word, same, each⟩

theorem Literal.callable (derivation : Literal w tokens term) (named : AllNamed tokens) :
    term.Callable := by
  have called (first : ∀ token ∈ tokens.head?, token.kind = .functor) : term.Callable := by
    obtain ⟨name, arguments, rfl, word, kind, each⟩ := derivation.called named first
    exact .call name arguments word kind each
  cases derivation with
  | truth => exact .truth
  | falsity => exact .falsity
  | name kind | empty kind | call kind => exact called (by simpa using kind)

theorem Callable.speakable (callable : term.Callable) : term.Speakable := by
  cases callable with
  | truth => exact .truth
  | falsity => exact .falsity
  | call name arguments word kind each =>
    cases arguments with
    | nil => exact .name name word kind
    | cons argument arguments => exact .call name _ word kind (List.cons_ne_nil _ _) each

theorem Callable.plain (callable : term.Callable) : term.isPlainLiteral = true := by
  cases callable with
  | truth | falsity => rfl
  | call name arguments word kind each =>
    have none := ofFunctor?_of_word word kind
    have noMinus : name ≠ "-" := word.ne
    match arguments with
    | [] => rfl
    | [_] => simp [literal, isPlainLiteral, indicator?, isExpression, noMinus]
    | [_, _] => simp [literal, isPlainLiteral, indicator?, isExpression, none]
    | _ :: _ :: _ :: _ => rfl

theorem literalParts_literal (name : String) (arguments : List Term) :
    (literal name arguments).literalParts = (name, arguments) := by
  cases arguments <;> rfl

/-- A text that begins with a word has it for its first token. -/
theorem scan_word (word : IsWord name) {more : List Char} (detached : Detached more)
    (position : Position) :
    scan position (name.toList ++ more) = ⟨Lexeme.nameKind name.toList, name.toList, position, true⟩ ::
      scan (position.after name.toList) more := by
  obtain ⟨c, rest, text, start, others⟩ := first_word word
  have seen : ∀ kind ∈ Lexeme.nameKinds, kind.isTrivia = false := by decide
  have trivia := seen _ (Lexeme.nameKind_mem name.toList)
  rw [text] at trivia ⊢
  rw [(Source.tidy_word start others).scan_append detached,
    Source.scan_token (Source.next_word start others) trivia]
  rfl

/-- A word in front of a space is a token. -/
theorem scan_word_space (word : IsWord name) (position : Position) (more : List Char) :
    scan position (name.toList ++ [' '] ++ more) =
      ⟨Lexeme.nameKind name.toList, name.toList, position, true⟩ ::
        scan (position.after (name.toList ++ [' '])) more := by
  have scanned := scan_word word (Source.detached_space more) position
  rw [Source.scan_blank (by decide)] at scanned
  rw [List.append_assoc, Position.after_append]
  exact scanned

theorem opens_word (word : IsWord name) (text : List Char) :
    Source.Opens (Lexeme.nameKind name.toList) (name.toList ++ [' ']) text :=
  fun position more => ⟨_, rfl, scan_word_space word position (text ++ more)⟩

/-- A word between spaces parts what stands on its sides. -/
theorem divides_word (word : IsWord name) :
    Source.Divides (Lexeme.nameKind name.toList) (' ' :: (name.toList ++ [' '])) where
  detached more := Source.detached_space _
  scanned position more := by
    have scanned := scan_word_space word (position.next ' ') more
    rw [← Source.scan_blank (by decide) position] at scanned
    exact ⟨_, rfl, scanned⟩

/-- The text of a literal is its name, with nothing behind that carries it on. -/
theorem exists_render_literal (word : IsWord name) (kind : Lexeme.nameKind name.toList = .functor)
    (arguments : List Term) :
    ∃ rest, (literal name arguments).render.toList = name.toList ++ rest ∧
      ∀ more, Detached more → Detached (rest ++ more) := by
  cases arguments with
  | nil => exact ⟨[], (List.append_nil _).symm, fun _ detached => detached⟩
  | cons argument arguments =>
    exact ⟨_, render_call word kind _, fun _ _ => Source.detached_cons (by decide) _⟩

/-- The text of a literal begins like a name. -/
theorem Callable.first (callable : term.Callable) :
    ∃ c rest, term.render.toList = c :: rest ∧ Lexeme.isNameStart c = true := by
  cases callable with
  | truth => exact ⟨'t', _, rfl, by decide⟩
  | falsity => exact ⟨'f', _, rfl, by decide⟩
  | call name arguments word kind each =>
    obtain ⟨last, whole, -⟩ := exists_render_literal word kind arguments
    obtain ⟨c, rest, text, start, -⟩ := first_word word
    exact ⟨c, rest ++ last, by rw [whole, text, List.cons_append], start⟩

theorem Callable.begins (callable : term.Callable) (position : Position) :
    Begins [.trueWord, .falseWord, .functor] (scan position term.render.toList) := by
  have alone {name : String} (word : IsWord name)
      (listed : Lexeme.nameKind name.toList ∈ [Kind.trueWord, .falseWord, .functor]) :
      Begins [.trueWord, .falseWord, .functor] (scan position name.toList) := by
    rw [← List.append_nil name.toList, scan_word word Source.detached_nil]
    exact begins_cons rfl listed _
  cases callable with
  | truth => exact alone (by decide) (by decide)
  | falsity => exact alone (by decide) (by decide)
  | call name arguments word kind each =>
    obtain ⟨rest, text, apart⟩ := exists_render_literal word kind arguments
    rw [text, ← List.append_nil rest, scan_word word (apart [] Source.detached_nil)]
    exact begins_cons kind (by decide) _

/-- A term whose text begins with no minus sign begins with a constant, a variable or a bracket. -/
theorem Speakable.begins_unsigned (speakable : term.Speakable)
    (unsigned : (start term.render).token.kind ≠ .minus) (position : Position) :
    Begins primaryFirsts (scan position term.render.toList) := by
  obtain ⟨_, _, _, shows⟩ := speakable.shown 0
  obtain ⟨token, rest, tokens, listed⟩ := (shows.whole.expression.counted position).2.begins
  have ahead : position.offset = Position.start.offset + position.offset := (Nat.zero_add _).symm
  have moved := Source.scan_moved ahead term.render.toList
  rw [tokens] at moved
  obtain ⟨first, others, like, -, split⟩ := List.forall₂_cons_right_iff.mp moved
  rw [Source.start_eq, Source.Cursor.token, split] at unsigned
  have other : token.kind ≠ .minus := like.kind ▸ unsigned
  exact ⟨token, rest, tokens, (List.mem_cons.mp listed).resolve_left other⟩

theorem Kept.tidy (kept : term.Kept) : Tidy term.render.toList := by
  obtain ⟨_, _, _, shows, -⟩ := kept 0
  exact shows.whole.neat.tidy

theorem Items.parsed {w : Nat} {tokens : List Token} {terms : List Term} (items : Items w tokens terms)
    (formed : ∀ token ∈ tokens, token.problem? = none) (fuel : Nat) (enough : tokens.length ≤ fuel) :
    Gives itemsCarriers (commaSeparated parse fuel) w tokens terms := by
  induction fuel generalizing w tokens terms with
  | zero =>
    have some := items.begins.length_pos
    omega
  | succ fuel ih =>
    cases items with
    | single item => exact gives_item (item.parsed formed) fuel
    | more item kind rest =>
      rw [List.length_append, List.length_cons] at enough
      refine gives_more (item.parsed fun token member => formed token (by simp [member])) kind ?_
      exact ih rest (fun token member => formed token (by simp [member])) (by omega)

/-- Reading a literal gives the one that the tokens make up. -/
theorem Literal.parsed (derivation : Literal w tokens term)
    (formed : ∀ token ∈ tokens, token.problem? = none) :
    Gives signedCarriers parseLiteral w tokens term := by
  cases derivation with
  | truth kind | falsity kind =>
    apply gives_peek (formed_of_kind kind (by decide))
    simp only [kind]
    exact gives_advance (formed_of_kind kind (by decide)) (kind ▸ by decide) (gives_pure _ _ _)
  | name kind => exact gives_name kind (gives_unaccepted_end (by decide) (gives_pure _ _ _))
  | empty kind opened closed => exact gives_name kind (gives_noArguments opened closed)
  | @call _ inner _ _ _ _ kind opened items closed =>
    have inside : ∀ token ∈ inner, token.problem? = none := fun token member =>
      formed token (by simp [member])
    rw [← items.literal_eq]
    exact gives_name kind (gives_arguments opened items.begins inside
      (fun fuel enough => items.parsed inside fuel (Nat.le_of_lt enough)) closed)

section Taking

variable {bound : Nat} {kinds : List Kind}
  (sure : ∀ kind ∈ kinds, kind ∉ [Kind.blockComment, .string, .unknown])

include sure

/-- What the tokens of a text make up wherever it stands is taken from it. -/
theorem takes_spelled {parser : Source.Parser Term} {derives : Nat → List Token → Term → Prop}
    {text : List Char} {carriers : List Kind}
    (spelled : ∀ low, ∃ high value, Spells derives low high text value ∧ Renumbered term value)
    (parsed : ∀ {w tokens value}, derives w tokens value →
      (∀ token ∈ tokens, token.problem? = none) → Gives carriers parser w tokens value)
    (stops : ∀ kind ∈ kinds, kind ∉ carriers) :
    Takes bound parser (Front kinds) text (Renumbered term) := by
  intro position more finish w ended front few
  obtain ⟨high, value, spells, renumbered⟩ := spelled w
  have formed : (edge (scan (position.after text) more) finish).problem? = none :=
    formed_of_kind rfl (sure _ front.listed)
  have ran := parsed (spells.counted position).2 spells.neat.tidy.formed_scan _ finish formed
    (stops _ front.listed)
  rw [spells.neat.tidy.scan_append front.detached]
  exact ⟨value, _, renumbered, ran⟩

theorem Kept.takes (kept : term.Kept) (stops : ∀ kind ∈ kinds, kind ∉ expressionCarriers) :
    Takes bound parse (Front kinds) term.render.toList (Renumbered term) := by
  refine takes_spelled sure (fun low => ?_) Expression.parsed stops
  obtain ⟨high, value, _, shows, renumbered⟩ := kept low
  exact ⟨high, value, shows.whole.expression, renumbered⟩

theorem Callable.takes (callable : term.Callable) (kept : term.Kept) (stops : .openParen ∉ kinds) :
    Takes bound parseLiteral (Front kinds) term.render.toList (Renumbered term) := by
  refine takes_spelled sure (fun low => ?_) Literal.parsed fun kind listed carried => ?_
  · obtain ⟨high, value, _, shows, f, rfl⟩ := kept low
    have spelled := shows.whole.expression
    have plain : (term.rename (.renumber f)).isPlainLiteral = true := by
      rw [isPlainLiteral_rename, callable.plain]
    refine ⟨high, _, ⟨spelled.neat, fun position => ?_⟩, f, rfl⟩
    obtain ⟨count, derivation⟩ := spelled.counted position
    exact ⟨count, derivation.toLiteral (callable.begins position) plain⟩
  · exact stops (List.mem_singleton.mp carried ▸ listed)

end Taking

end Term

end AgentSpeak
