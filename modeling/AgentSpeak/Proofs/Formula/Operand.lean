import AgentSpeak.Proofs.Formula.Connective
import AgentSpeak.Proofs.Formula.Grouping

namespace AgentSpeak.Formula

open Source (Parser Kind Token Cursor Position Tidy Neat Detached scan edge)
open Source.Parser

section Runs

variable {cursor middle after : Cursor} {left right : Term}

theorem run_relation_none (formed : cursor.token.problem? = none)
    (unrelated : relation? cursor.token.kind = none) (left : Term) :
    parseRelation? left cursor = (.ok none, cursor) := by
  rw [parseRelation?, run_bind, run_peek_formed formed]
  simp only [unrelated]
  rfl

theorem run_relation_some (formed : cursor.token.problem? = none) {relation : Relation}
    (related : relation? cursor.token.kind = some relation)
    (read : Term.parse (behind cursor) = (.ok right, after)) (left : Term) :
    parseRelation? left cursor = (.ok (some (.comparison relation left right)), after) := by
  rw [parseRelation?, run_bind, run_peek_formed formed]
  simp only [related]
  rw [run_bind, run_advance formed]
  show (Term.parse >>= _) (behind cursor) = _
  rw [run_bind, read]
  rfl

theorem run_atomic_literal (read : Term.parse cursor = (.ok left, after))
    (formed : after.token.problem? = none) (unrelated : relation? after.token.kind = none)
    (plain : left.isPlainLiteral = true) : parseAtomic cursor = (.ok (.literal left), after) := by
  rw [parseAtomic, run_bind, run_peek_formed (Term.parse_begins read).1]
  show (Term.parse >>= _) cursor = _
  rw [run_bind, read]
  show (parseRelation? left >>= _) after = _
  rw [run_bind, run_relation_none formed unrelated]
  simp only [plain, if_true]
  rfl

theorem run_atomic_comparison (read : Term.parse cursor = (.ok left, middle))
    (formed : middle.token.problem? = none) {relation : Relation}
    (related : relation? middle.token.kind = some relation)
    (read' : Term.parse (behind middle) = (.ok right, after)) :
    parseAtomic cursor = (.ok (.comparison relation left right), after) := by
  rw [parseAtomic, run_bind, run_peek_formed (Term.parse_begins read).1]
  show (Term.parse >>= _) cursor = _
  rw [run_bind, read]
  show (parseRelation? left >>= _) middle = _
  rw [run_bind, run_relation_some formed related read']
  rfl

variable {formula : Parser Formula}

theorem run_simple_atomic (formed : cursor.token.problem? = none)
    (noGroup : cursor.token.kind ≠ .openParen) :
    parseSimple formula cursor = parseAtomic cursor := by
  rw [parseSimple, run_bind, run_check formed]
  simp [noGroup]

theorem run_simple_none (formed : cursor.token.problem? = none)
    (parenthesis : cursor.token.kind = .openParen)
    (none : parseGroup? formula cursor = (.ok none, after)) :
    parseSimple formula cursor = parseAtomic after := by
  rw [parseSimple, run_bind, run_check formed]
  simp only [parenthesis, decide_true, if_true]
  rw [run_bind, none]

theorem run_simple_some (formed : cursor.token.problem? = none)
    (parenthesis : cursor.token.kind = .openParen) {inner : Formula}
    (some : parseGroup? formula cursor = (.ok (some inner), after)) :
    parseSimple formula cursor = (.ok inner, after) := by
  rw [parseSimple, run_bind, run_check formed]
  simp only [parenthesis, decide_true, if_true]
  rw [run_bind, some]
  rfl

/-- A formula between parentheses with neither a relation nor an operator behind them is a group. -/
theorem run_group (opened : cursor.token.problem? = none) {inner : Formula}
    (read : formula (behind cursor) = (.ok inner, middle))
    (formed : middle.token.problem? = none) (closed : middle.token.kind = .closeParen)
    (next : (behind middle).token.problem? = none)
    (unrelated : relation? (behind middle).token.kind = none)
    (plain : Term.isArithmetic (behind middle).token.kind = false) :
    parseGroup? formula cursor = (.ok (some inner), behind middle) := by
  have ran : (do
      let _ ← advance
      let inner ← formula
      let _ ← expect .closeParen (.token .closeParen)
      let next ← peek
      if (relation? next.kind).isSome || Term.isArithmetic next.kind then return none
      else return some inner : Parser (Option Formula)) cursor =
        (.ok (some inner), behind middle) := by
    rw [run_bind, run_advance opened]
    show (formula >>= _) (behind cursor) = _
    rw [run_bind, read]
    show (expect _ _ >>= _) middle = _
    rw [run_bind, run_expect formed closed]
    show (peek >>= _) (behind middle) = _
    rw [run_bind, run_peek_formed next]
    simp [unrelated, plain]
  rw [parseGroup?, attempt, ran]

theorem run_negation_simple (formed : cursor.token.problem? = none)
    (noNegation : cursor.token.kind ≠ .notWord) (fuel : Nat) :
    parseNegation formula (fuel + 1) cursor = parseSimple formula cursor := by
  rw [parseNegation, run_bind, run_accept_false formed noNegation]
  rfl

theorem run_negation_not (formed : cursor.token.problem? = none)
    (negation : cursor.token.kind = .notWord) {fuel : Nat} {inner : Formula}
    (read : parseNegation formula fuel (behind cursor) = (.ok inner, after)) :
    parseNegation formula (fuel + 1) cursor = (.ok (.negation inner), after) := by
  rw [parseNegation, run_bind, run_accept_true formed negation]
  show (parseNegation formula fuel >>= _) (behind cursor) = _
  rw [run_bind, read]
  rfl

end Runs

/-- A negation's operand is read from a text in front of anything that ends it. -/
def ReadsNegated (depth : Nat) (text : List Char) (formula : Formula) : Prop :=
  ∀ (fuel : Nat) (position : Position) (more : List Char) (finish : Token) (w : Nat),
    finish.kind = .endOfInput → Ends (position.after text) more finish →
    (scan position (text ++ more)).length ≤ depth → (scan position (text ++ more)).length < fuel →
    ∃ other count, w ≤ count ∧ Like w count formula other ∧
      parseNegation (parseWithin depth) fuel ⟨scan position (text ++ more), finish, w⟩ =
        (.ok other, ⟨scan (position.after text) more, finish, count⟩)

variable {depth : Nat} {text : List Char} {formula : Formula}

/-- The operands of conjunctions. -/
def negated (depth : Nat) : Parser Formula := do
  parseNegation (parseWithin depth) (← budget)

theorem ReadsNegated.reads (reads : ReadsNegated depth text formula) :
    ReadsAs depth (negated depth) (fun _ => True) text formula := by
  intro position more finish w ended ends _ few
  obtain ⟨other, count, later, like, ran⟩ :=
    reads _ position more finish w ended ends few (Nat.lt_succ_self _)
  exact ⟨other, count, later, like, by rw [negated, run_bind, run_budget]; exact ran⟩

/-- The text of a plain literal begins with neither white space nor a parenthesis. -/
theorem literal_first {term : Term} (legible : term.Legible)
    (plain : term.isPlainLiteral = true) :
    ∃ c rest, term.render.toList = c :: rest ∧ Text.isBlank c = false ∧ c ≠ '(' := by
  have name : ∀ {functor : String} (more : String), IsWord functor →
      ∃ c rest, (functor ++ more).toList = c :: rest ∧ Text.isBlank c = false ∧ c ≠ '(' := by
    intro functor more word
    obtain ⟨c, rest, text, start, -⟩ := Term.first_word word
    refine ⟨c, rest ++ more.toList, by simp [text], (Source.nameStart_bounds start).1, ?_⟩
    rintro rfl
    exact absurd start (by decide)
  cases legible with
  | atom functor word =>
    obtain ⟨c, rest, text, solid, other⟩ := name "" word
    exact ⟨c, rest, by simpa [Term.render] using text, solid, other⟩
  | nil => exact ⟨'[', [']'], rfl, by decide, by decide⟩
  | call functor arguments word some each =>
    rw [Term.render_compound word.ne]
    unfold Term.renderCompound
    split
    next operator found _ =>
      simp [Term.isPlainLiteral, Term.isExpression, found] at plain
    next found _ =>
      obtain rfl : functor = "-" := Operator.functor_of_ofFunctor? found
      exact absurd word (by decide)
    next => simpa only [String.append_assoc] using name _ word
  | pair head tail first second =>
    have text : (Term.cons head tail).render.toList =
        '[' :: (head.render.toList ++ ((Term.renderTail tail).toList ++ [']'])) := by
      simp [Term.cons, Term.render]
    exact ⟨_, _, text, by decide, by decide⟩
  | binary operator left right first second =>
    simp [Term.isPlainLiteral, Term.isExpression] at plain
  | minus operand legible => simp [Term.isPlainLiteral, Term.isExpression] at plain
  | number | string | var => simp [Term.isPlainLiteral, Term.indicator?] at plain

theorem readsNegated_literal {term : Term} (legible : term.Legible)
    (plain : term.isPlainLiteral = true) (survives : term.Survives) :
    ReadsNegated depth term.render.toList (.literal term) := by
  intro fuel position more finish w ended ends few enough
  obtain ⟨other, count, later, ⟨f, same, numbered⟩, read⟩ :=
    survives.read legible position more finish w ends.toQuiet
  obtain ⟨fuel, rfl⟩ := Nat.exists_eq_add_one_of_ne_zero (Nat.ne_zero_of_lt enough)
  have formed := (Term.parse_begins read).1
  have noGroup : (Cursor.mk (scan position (term.render.toList ++ more)) finish w).token.kind ≠
      .openParen := by
    have tidy := legible.neat_render.1.tidy
    obtain ⟨c, rest, text, solid, other⟩ := literal_first legible plain
    rw [tidy.scan_append ends.detached]
    rw [text] at tidy ⊢
    obtain ⟨others, tokens⟩ := tidy.scan_first solid position
    rw [tokens]
    exact fun parenthesis => other ((Source.Lexeme.kindOf_next c rest).parenthesis parenthesis)
  have plainOther : other.isPlainLiteral = true := by
    rw [same, Term.isPlainLiteral_rename, plain]
  refine ⟨.literal other, count, later, ⟨f, congrArg _ same, numbered⟩, ?_⟩
  rw [run_negation_simple formed (Term.parse_first read), run_simple_atomic formed noGroup]
  exact run_atomic_literal read ends.formed ends.unrelated plainOther

theorem readsNegated_not (reads : ReadsNegated depth text formula) :
    ReadsNegated depth ('n' :: 'o' :: 't' :: ' ' :: text) (.negation formula) := by
  intro fuel position more finish w ended ends few enough
  have word : Tidy ['n', 'o', 't'] := Source.tidy_word (by decide) (by decide)
  have tokens : ∀ rest, scan position ('n' :: 'o' :: 't' :: ' ' :: rest) =
      ⟨.notWord, ['n', 'o', 't'], position, true⟩ ::
        scan (position.after ['n', 'o', 't', ' ']) rest := by
    intro rest
    calc
      scan position ('n' :: 'o' :: 't' :: ' ' :: rest) = scan position ['n', 'o', 't'] ++
          scan (position.after ['n', 'o', 't']) (' ' :: rest) :=
        word.scan_append (Source.detached_space rest) position
      _ = ⟨.notWord, ['n', 'o', 't'], position, true⟩ ::
          scan (position.after ['n', 'o', 't', ' ']) rest := by
        rw [Source.scan_blank (show Text.isBlank ' ' = true by decide)]
        rfl
  rw [List.cons_append, List.cons_append, List.cons_append, List.cons_append, tokens,
    List.length_cons] at few enough
  obtain ⟨fuel, rfl⟩ := Nat.exists_eq_add_one_of_ne_zero (Nat.ne_zero_of_lt enough)
  obtain ⟨inner, count, later, ⟨f, same, numbered⟩, read⟩ :=
    reads fuel (position.after ['n', 'o', 't', ' ']) more finish w ended ends (by omega) (by omega)
  refine ⟨.negation inner, count, later, ⟨f, congrArg _ same, numbered⟩, ?_⟩
  rw [List.cons_append, List.cons_append, List.cons_append, List.cons_append, tokens]
  exact run_negation_not rfl rfl read

/-- A closing parenthesis ends the formula before it. -/
theorem ends_closing (position : Position) (more : List Char) (finish : Token) :
    Ends position (')' :: more) finish ∧
      scan position (')' :: more) = ⟨.closeParen, [')'], position, true⟩ ::
        scan (position.next ')') more := by
  have tokens := Source.scan_punctuation
    (show (')', Kind.closeParen) ∈ Source.punctuation by decide) position more
  refine ⟨⟨⟨Source.detached_cons (by decide) more, ?_, ?_⟩, ?_⟩, tokens⟩ <;> rw [tokens] <;> rfl

theorem readsNegated_group
    (reads : ∀ depth, ReadsAs depth (parseWithin (depth + 1))
      (fun kind => conjunction? kind = none ∧ disjunction? kind = none) text formula) :
    ReadsNegated depth ('(' :: (text ++ [')'])) formula := by
  intro fuel position more finish w ended ends few enough
  have whole : '(' :: (text ++ [')']) ++ more = '(' :: (text ++ ')' :: more) := by simp
  have opened := Source.scan_punctuation (show ('(', Kind.openParen) ∈ Source.punctuation by decide)
    position (text ++ ')' :: more)
  rw [whole, opened, List.length_cons] at few enough
  obtain ⟨fuel, rfl⟩ := Nat.exists_eq_add_one_of_ne_zero (Nat.ne_zero_of_lt enough)
  obtain ⟨depth, rfl⟩ := Nat.exists_eq_add_one_of_ne_zero
    (Nat.ne_zero_of_lt (Nat.lt_of_lt_of_le (Nat.lt_succ_self _) few))
  obtain ⟨endsInner, closed⟩ := ends_closing ((position.next '(').after text) more finish
  obtain ⟨inner, count, later, like, read⟩ := reads depth (position.next '(') (')' :: more) finish w
    ended endsInner (by rw [closed]; exact ⟨rfl, rfl⟩) (Nat.le_of_succ_le_succ few)
  have after : position.after ('(' :: (text ++ [')'])) =
      ((position.next '(').after text).next ')' := by
    rw [Position.after, List.foldl_cons, List.foldl_append]
    rfl
  rw [after] at ends ⊢
  rw [closed] at read
  have plain : Term.isArithmetic (edge (scan (((position.next '(').after text).next ')') more)
      finish).kind = false := by
    have stops := ends.ends
    cases kind : (edge (scan (((position.next '(').after text).next ')') more) finish).kind <;>
      first | rfl | (rw [kind] at stops; cases stops)
  refine ⟨inner, count, later, like, ?_⟩
  rw [whole, opened, run_negation_simple rfl (by simp [Cursor.token])]
  refine run_simple_some rfl rfl ?_
  show parseGroup? _ _ = (_, behind ⟨⟨.closeParen, [')'], (position.next '(').after text, true⟩ ::
    scan (((position.next '(').after text).next ')') more, finish, count⟩)
  exact run_group rfl read rfl rfl ends.formed ends.unrelated plain

/-- A relation ends the term before it. -/
theorem relation_endsTerm {relation : Relation} {kind : Kind}
    (known : relation? kind = some relation) : kind.endsTerm = true ∧ kind ≠ .unknown ∧
      kind.isTrivia = false := by
  cases kind <;> first | exact ⟨rfl, by decide, rfl⟩ | cases known

section Comparisons

variable {relation : Relation} {kind : Kind} {left right : Term}
  (known : relation? kind = some relation) (first : left.Legible) (second : right.Legible)
  (survives : left.Survives) (survives' : right.Survives)
  (apart : ∀ n ∈ numbers left.vars, n ∉ numbers right.vars)

/-- A text behind the sign of a relation. -/
def related (relation : Relation) (text : List Char) : List Char :=
  ' ' :: (relation.symbol.toList ++ ' ' :: text)

include known in
theorem scan_related (position : Position) (text : List Char) :
    scan position (related relation text) =
      ⟨kind, relation.symbol.toList, position.next ' ', true⟩ ::
        scan (position.after (related relation [])) text := by
  rw [related, Source.scan_between (tidy_symbol ⟨kind, known⟩) (Relation.scan_symbol known)
    (relation_endsTerm known).2.2]
  rfl

include known in
theorem quiet_related (position : Position) (text : List Char) (finish : Token) :
    Term.Quiet position (related relation text) finish ∧
      (edge (scan position (related relation text)) finish).kind = kind := by
  obtain ⟨ends, formed, -⟩ := relation_endsTerm known
  have kinds : (edge (scan position (related relation text)) finish).kind = kind := by
    rw [scan_related known]
    rfl
  refine ⟨⟨Source.detached_space _, kinds ▸ ends, ?_⟩, kinds⟩
  rw [scan_related known]
  exact Source.complete_formed formed _ _

include known first second survives survives' apart

/-- The sides of a relation are read from its text. -/
theorem run_comparison (position : Position) (more : List Char) (finish : Token) (w : Nat)
    (ends : Ends (position.after (left.render.toList ++ related relation right.render.toList))
      more finish) :
    ∃ other count, w ≤ count ∧ Like w count (.comparison relation left right) other ∧
      parseAtomic ⟨scan position
        (left.render.toList ++ related relation right.render.toList ++ more), finish, w⟩ =
        (.ok other, ⟨scan (position.after
          (left.render.toList ++ related relation right.render.toList)) more, finish, count⟩) := by
  have whole : left.render.toList ++ related relation right.render.toList ++ more =
      left.render.toList ++ related relation (right.render.toList ++ more) := by
    simp [related]
  have after : position.after (left.render.toList ++ related relation right.render.toList) =
      ((position.after left.render.toList).after (related relation [])).after
        right.render.toList := by
    have parts : related relation right.render.toList =
        related relation [] ++ right.render.toList := by simp [related]
    rw [parts, Position.after_append, Position.after_append]
  obtain ⟨quiet, kinds⟩ := quiet_related known (position.after left.render.toList)
    (right.render.toList ++ more) finish
  obtain ⟨left', count, later, ⟨f, same, numbered⟩, read⟩ :=
    survives.read first position _ finish w quiet
  rw [after] at ends ⊢
  obtain ⟨right', count', later', ⟨g, same', numbered'⟩, read'⟩ :=
    survives'.read second _ more finish count ends.toQuiet
  obtain ⟨h, onLeft, onRight⟩ := exists_joint apart f g
  refine ⟨.comparison relation left' right', count', Nat.le_trans later later', ⟨h, ?_, ?_⟩, ?_⟩
  · rw [same, same', ← Term.rename_congr onLeft, ← Term.rename_congr onRight]
    rfl
  · exact numbered.append numbered' later later'
  · rw [whole]
    refine run_atomic_comparison read quiet.formed (kinds ▸ known) ?_
    rw [scan_related known]
    exact read'

theorem readsNegated_comparison :
    ReadsNegated depth (left.render.toList ++ related relation right.render.toList)
      (.comparison relation left right) := by
  intro fuel position more finish w ended ends few enough
  have whole : left.render.toList ++ related relation right.render.toList ++ more =
      left.render.toList ++ related relation (right.render.toList ++ more) := by
    simp [related]
  obtain ⟨fuel, rfl⟩ := Nat.exists_eq_add_one_of_ne_zero (Nat.ne_zero_of_lt enough)
  obtain ⟨quiet, kinds⟩ := quiet_related known (position.after left.render.toList)
    (right.render.toList ++ more) finish
  obtain ⟨term, count, -, -, read⟩ := survives.read first position _ finish w quiet
  rw [← whole] at read
  have atomic := run_comparison known first second survives survives' apart position more finish
  have formed := (Term.parse_begins read).1
  rw [run_negation_simple formed (Term.parse_first read)]
  by_cases parenthesis : (Cursor.mk (scan position (left.render.toList ++
      related relation right.render.toList ++ more)) finish w).token.kind = .openParen
  · have spelled : ∀ token ∈ scan position (left.render.toList ++
        related relation right.render.toList ++ more), Term.Spelled token :=
      fun token => Source.spelled_scan
    cases tokens : scan position (left.render.toList ++
        related relation right.render.toList ++ more) with
    | nil =>
      rw [tokens] at parenthesis
      exact absurd (ended.symm.trans parenthesis) (by decide)
    | cons opening rest =>
      rw [tokens] at parenthesis formed read spelled few
      obtain ⟨count, later, none⟩ := no_group ended spelled formed few parenthesis read
        (by rw [← kinds] at known; exact known ▸ rfl)
      obtain ⟨other, count', later', ⟨f, same, numbered⟩, ran⟩ := atomic count ends
      refine ⟨other, count', Nat.le_trans later later', ⟨f, same, numbered.above later⟩, ?_⟩
      rw [run_simple_none formed parenthesis none, ← tokens, ran]
  · obtain ⟨other, count, later, like, ran⟩ := atomic w ends
    exact ⟨other, count, later, like, by rw [run_simple_atomic formed parenthesis, ran]⟩

end Comparisons

end AgentSpeak.Formula
