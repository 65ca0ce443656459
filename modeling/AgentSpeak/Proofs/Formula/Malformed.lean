import AgentSpeak.Proofs.Formula.Phrase
import AgentSpeak.Proofs.Term.Malformed

/-!
A malformed token behind a formula. A text with one is never read as a formula, and what is reported
is that token if the formula ends with a relation or a literal.

If it ends with a group, the token behind the group is looked at on trial, to see whether the group was
a term in parentheses. Its problem then counts as a failure of the trial, and what is reported is that
the parentheses hold no term.
-/

namespace AgentSpeak.Formula

open Source (Parser Token Kind Cursor Position Problem wildcards formed_of_kind scan scan_line
  significant_eq finishOf start_eq spelled_scan)
open Source.Parser
open Term (Expression)

/-- Relations and literals behind any number of negations: the operands that end as terms do. -/
inductive Bare : Nat → List Token → Formula → Prop where
  | negation {w : Nat} {tokens : List Token} {sign : Token} {formula : Formula}
      (kind : sign.kind = .notWord) (operand : Bare w tokens formula) :
      Bare w (sign :: tokens) (.negation formula)
  | relation {w : Nat} {before after : List Token} {sign : Token} {relation : Relation}
      {left right : Term} (first : Expression w before left)
      (listed : (sign.kind, relation) ∈ relations)
      (second : Expression (w + wildcards before) after right) :
      Bare w (before ++ sign :: after) (.comparison relation left right)
  | literal {w : Nat} {tokens : List Token} {term : Term} (expression : Expression w tokens term)
      (plain : term.isPlainLiteral = true) : Bare w tokens (.literal term)

/-- Formulas joined by a sign, of which the last one has a property. -/
inductive EndsWith (sign : Kind) (combine : Formula → Formula → Formula)
    (joined last : Nat → List Token → Formula → Prop) : Nat → List Token → Formula → Prop where
  | single {w : Nat} {tokens : List Token} {formula : Formula} (own : last w tokens formula) :
      EndsWith sign combine joined last w tokens formula
  | join {w : Nat} {before after : List Token} {token : Token} {left right : Formula}
      (first : joined w before left) (kind : token.kind = sign)
      (own : last (w + wildcards before) after right) :
      EndsWith sign combine joined last w (before ++ token :: after) (combine left right)

/-- Formulas in parentheses behind any number of negations. -/
inductive Grouped : Nat → List Token → Formula → Prop where
  | negation {w : Nat} {tokens : List Token} {sign : Token} {formula : Formula}
      (kind : sign.kind = .notWord) (operand : Grouped w tokens formula) :
      Grouped w (sign :: tokens) (.negation formula)
  | group {w : Nat} {tokens : List Token} {opening closing : Token} {formula : Formula}
      (opened : opening.kind = .openParen) (inner : Disjunction w tokens formula)
      (closed : closing.kind = .closeParen) :
      Grouped w (opening :: (tokens ++ [closing])) formula

/-- Formulas whose last operand outside parentheses has a property. -/
def Ending (last : Nat → List Token → Formula → Prop) : Nat → List Token → Formula → Prop :=
  EndsWith .bar .disjunction Disjunction (EndsWith .ampersand .conjunction Conjunction last)

/-- In front of a malformed token, a parser ends with its problem when it has read some tokens. -/
def Stumbles (bound : Nat) (parser : Parser Formula) (tokens : List Token) : Prop :=
  ∀ bad rest finish problem c, bad.problem? = some problem →
    Placed bound tokens (bad :: rest) finish →
      Reports parser ⟨tokens ++ bad :: rest, finish, c⟩ problem

section Runs

variable {cursor middle : Cursor} {problem : Problem} {formula : Parser Formula}

/-- A malformed token behind a group ends the trial, and the group is not taken for one. -/
theorem run_group_malformed (opened : cursor.token.problem? = none) {inner : Formula}
    (read : formula (behind cursor) = (.ok inner, middle))
    (formed : middle.token.problem? = none) (closed : middle.token.kind = .closeParen)
    (malformed : (behind middle).token.problem? = some problem) :
    parseGroup? formula cursor = (.ok none, { cursor with wildcards := middle.wildcards }) := by
  have ran : (do
      let _ ← advance
      let inner ← formula
      let _ ← expect .closeParen (.token .closeParen)
      let next ← peek
      if (relation? next.kind).isSome || Term.isArithmetic next.kind then return none
      else return some inner : Parser (Option Formula)) cursor =
        (.error problem, behind middle) := by
    rw [run_then (run_advance opened), run_then read, run_then (run_expect formed closed _), run_bind,
      run_peek_malformed malformed]
  rw [parseGroup?, attempt, ran]
  dsimp only
  rw [Source.isFatal_of_problem? malformed, if_neg Bool.false_ne_true]
  rfl

theorem reports_atomic (formed : cursor.token.problem? = none)
    (reports : Reports Term.parse cursor problem) : Reports parseAtomic cursor problem :=
  .behind (run_peek_formed formed) (reports.bind _)

/-- A problem of a relation's right side is one of the relation. -/
theorem reports_related {left : Term} {relation : Relation}
    (read : Term.parse cursor = (.ok left, middle)) (formed : middle.token.problem? = none)
    (related : relation? middle.token.kind = some relation)
    (reports : Reports Term.parse (behind middle) problem) : Reports parseAtomic cursor problem := by
  have right : Reports (parseRelation? left) middle problem := by
    refine .behind (run_peek_formed formed) ?_
    rw [related]
    exact .behind (run_advance formed) (reports.bind _)
  refine .behind (run_peek_formed (Term.parse_begins read).1) (.behind read (right.bind _))

/-- Where a parenthesis is no group's, what is read is a relation or a literal. -/
theorem reports_simple (formed : cursor.token.problem? = none)
    (group : cursor.token.kind = .openParen →
      ∃ count, parseGroup? formula cursor = (.ok none, { cursor with wildcards := count }))
    (atomic : ∀ count, Reports parseAtomic { cursor with wildcards := count } problem) :
    Reports (parseSimple formula) cursor problem := by
  by_cases parenthesis : cursor.token.kind = .openParen
  · obtain ⟨count, none⟩ := group parenthesis
    obtain ⟨after, ran⟩ := atomic count
    exact ⟨after, (run_simple_none formed parenthesis none).trans ran⟩
  · obtain ⟨after, ran⟩ := atomic cursor.wildcards
    exact ⟨after, (run_simple_atomic formed parenthesis).trans ran⟩

end Runs

section Steps

variable {w bound depth : Nat} {tokens before after : List Token} {token opening closing : Token}
  {formula left right : Formula} {term : Term} {parser : Parser Formula}

theorem Stumbles.single (stumbles : Stumbles bound parser tokens)
    (operator? : Kind → Option (Formula → Formula → Formula)) :
    Stumbles bound (chain operator? parser) tokens :=
  fun bad rest finish problem c malformed placed =>
    (stumbles bad rest finish problem c malformed placed).bind _

theorem Stumbles.join {operator? : Kind → Option (Formula → Formula → Formula)}
    {carriers : List Kind} {kind : Kind} {combine : Formula → Formula → Formula}
    (first : AcceptsChain operator? carriers bound parser before left) (same : token.kind = kind)
    (stumbles : Stumbles bound parser after) (found : operator? kind = some combine)
    (stops : kind ∉ carriers) : Stumbles bound (chain operator? parser) (before ++ token :: after) := by
  subst same
  intro bad rest finish problem c malformed placed
  have formed : token.problem? = none := placed.formed token (by simp)
  obtain ⟨other, count, fuel, -, -, enough, ran⟩ := first _ finish c (placed.first stops)
  obtain ⟨fuel, rfl⟩ := Nat.exists_eq_add_one_of_ne_zero (Nat.ne_zero_of_lt enough)
  have reports := stumbles bad rest finish problem count malformed placed.second
  rw [Reports, List.append_assoc, List.cons_append, ran]
  apply reports_chainFrom _ found reports
  exact formed

/-- The parsers of joined formulas stumble if that of the last one does. -/
theorem EndsWith.stumbles {sign : Kind} {combine : Formula → Formula → Formula}
    {joined last : Nat → List Token → Formula → Prop} {carriers : List Kind}
    {operator? : Kind → Option (Formula → Formula → Formula)}
    (ends : EndsWith sign combine joined last w tokens formula)
    (accepted : ∀ {w tokens formula}, joined w tokens formula →
      AcceptsChain operator? carriers bound parser tokens formula)
    (stumbles : ∀ {w tokens formula}, last w tokens formula → Stumbles bound parser tokens)
    (found : operator? sign = some combine) (stops : sign ∉ carriers) :
    Stumbles bound (chain operator? parser) tokens := by
  cases ends with
  | single own => exact (stumbles own).single operator?
  | join first kind own => exact .join (accepted first) kind (stumbles own) found stops

theorem stumbles_unnegated (begins : Term.Begins (.minus :: Term.primaryFirsts) tokens)
    (simple : Stumbles bound (parseSimple (parseWithin depth)) tokens) (fuel : Nat)
    (enough : tokens.length < fuel) :
    Stumbles bound (parseNegation (parseWithin depth) fuel) tokens := by
  obtain ⟨fuel, rfl⟩ := Nat.exists_eq_add_one_of_ne_zero (Nat.ne_zero_of_lt enough)
  obtain ⟨first, others, rfl, listed⟩ := begins
  have other : first.kind ≠ .notWord := fun same => absurd (same ▸ listed) (by decide)
  intro bad rest finish problem c malformed placed
  obtain ⟨after, ran⟩ := simple bad rest finish problem c malformed placed
  have formed : first.problem? = none := placed.formed first List.mem_cons_self
  refine ⟨after, .trans ?_ ran⟩
  exact @run_negation_simple ⟨first :: (others ++ bad :: rest), finish, c⟩ _ formed other fuel

theorem stumbles_negation {fuel : Nat} (negation : token.kind = .notWord)
    (operand : Stumbles bound (parseNegation (parseWithin depth) fuel) tokens) :
    Stumbles bound (parseNegation (parseWithin depth) (fuel + 1)) (token :: tokens) := by
  intro bad rest finish problem c malformed placed
  have reports := operand bad rest finish problem c malformed placed.tail
  have formed : token.problem? = none := placed.formed token List.mem_cons_self
  rw [parseNegation]
  refine .behind (run_accept_true ?_ negation) (reports.bind _)
  exact formed

/-- A relation is read up to its right side, also where it begins with a parenthesis. -/
theorem stumbles_relation {relation : Relation} {left right : Term}
    (first : Expression w before left) (listed : (token.kind, relation) ∈ relations)
    (second : Expression (w + wildcards before) after right) :
    Stumbles (depth + 1) (parseSimple (parseWithin depth)) (before ++ token :: after) := by
  intro bad rest finish problem c malformed placed
  obtain ⟨related, stops⟩ := relation?_of_listed listed
  have front := placed.first stops
  have ran := run_term first front c
  rw [List.append_assoc, List.cons_append]
  refine reports_simple (Term.parse_begins ran).1 (fun parenthesis => ?_) fun count => ?_
  · obtain ⟨opening, others, rfl, -⟩ := first.begins
    have spelled := placed.spelled
    have few := placed.few
    rw [List.append_assoc, List.cons_append, List.cons_append] at spelled few
    obtain ⟨count, -, none⟩ := no_group placed.ended spelled (Term.parse_begins ran).1
      (Nat.lt_of_succ_lt_succ few) parenthesis ran (related ▸ rfl)
    exact ⟨count, none⟩
  · exact reports_related (run_term first front count) front.next related
      (second.reports placed.second.formed malformed)

/-- A literal in parentheses is read on trial as a group, and then as a term. -/
theorem stumbles_literal (expression : Expression w tokens term)
    (plain : term.isPlainLiteral = true) :
    Stumbles (depth + 1) (parseSimple (parseWithin depth)) tokens := by
  intro bad rest finish problem c malformed placed
  have reports (count : Nat) : Reports Term.parse ⟨tokens ++ bad :: rest, finish, count⟩ problem :=
    expression.reports placed.formed malformed
  obtain ⟨first, others, same, -⟩ := expression.begins
  have formed : (Cursor.mk (tokens ++ bad :: rest) finish c).token.problem? = none := by
    subst same
    exact placed.formed first List.mem_cons_self
  refine reports_simple formed (fun parenthesis => ?_) fun count => reports_atomic ?_ (reports count)
  · have begins : Term.Begins [.openParen] tokens := by
      subst same
      exact Term.begins_cons parenthesis List.mem_cons_self _
    obtain ⟨opening, inner, closing, rfl, opened, closed, expression⟩ :=
      expression.enclosed begins plain
    have group : Disjunction w inner (.literal term) := .single (.single (.literal expression plain))
    obtain ⟨other, count, -, -, ran⟩ := accepts_within (fun less => group.accepted) depth _ finish c
      (placed.inside (closed ▸ by decide))
    have formed : (Cursor.mk (opening :: (inner ++ closing :: bad :: rest)) finish c).token.problem? =
      none := formed_of_kind opened (by decide)
    have formed' : (Cursor.mk (closing :: bad :: rest) finish count).token.problem? = none :=
      formed_of_kind closed (by decide)
    refine ⟨count, ?_⟩
    rw [List.cons_append, List.append_assoc]
    exact run_group_malformed formed ran formed' closed malformed
  · exact formed

end Steps

variable {w depth : Nat} {tokens : List Token} {formula : Formula}

theorem Bare.stumbles (bare : Bare w tokens formula) (fuel : Nat) (enough : tokens.length < fuel) :
    Stumbles (depth + 1) (parseNegation (parseWithin depth) fuel) tokens := by
  induction bare generalizing fuel with
  | negation kind _ ih =>
    obtain ⟨fuel, rfl⟩ := Nat.exists_eq_add_one_of_ne_zero (Nat.ne_zero_of_lt enough)
    exact stumbles_negation kind (ih fuel (Nat.lt_of_succ_lt_succ enough))
  | relation first listed second =>
    exact stumbles_unnegated (first.begins.append _) (stumbles_relation first listed second) fuel
      enough
  | literal expression plain =>
    exact stumbles_unnegated expression.begins (stumbles_literal expression plain) fuel enough

theorem stumbles_negated (bare : Bare w tokens formula) :
    Stumbles (depth + 1) (negated depth) tokens := by
  intro bad rest finish problem c malformed placed
  refine .behind (run_budget _) ?_
  refine bare.stumbles _ ?_ bad rest finish problem c malformed placed
  rw [List.length_append]
  omega

/-- A formula that ends with a bare operand is read up to a malformed token. -/
theorem stumbles_within (ends : Ending Bare w tokens formula) (depth : Nat) :
    Stumbles (depth + 1) (parseWithin (depth + 1)) tokens := by
  refine EndsWith.stumbles ends Disjunction.accepted (fun ends => ?_) rfl (by decide)
  exact EndsWith.stumbles ends Conjunction.accepted stumbles_negated rfl (by decide)

theorem Operand.bare_or_grouped (operand : Operand w tokens formula) :
    Bare w tokens formula ∨ Grouped w tokens formula := by
  induction operand using Operand.rec (motive_1 := fun _ _ _ _ => True)
      (motive_2 := fun _ _ _ _ => True) with
  | negation kind _ ih => exact ih.imp (.negation kind) (.negation kind)
  | group opened inner closed => exact .inr (.group opened inner closed)
  | relation first listed second => exact .inl (.relation first listed second)
  | literal expression plain => exact .inl (.literal expression plain)
  | _ => trivial

/-- A formula ends with a relation or a literal or with a group. -/
theorem Disjunction.bare_or_grouped (disjunction : Disjunction w tokens formula) :
    Ending Bare w tokens formula ∨ Ending Grouped w tokens formula := by
  have conjunct {w : Nat} {tokens : List Token} {formula : Formula}
      (conjunction : Conjunction w tokens formula) :
      EndsWith .ampersand .conjunction Conjunction Bare w tokens formula ∨
        EndsWith .ampersand .conjunction Conjunction Grouped w tokens formula := by
    cases conjunction with
    | single operand => exact operand.bare_or_grouped.imp .single .single
    | join first kind operand =>
      exact operand.bare_or_grouped.imp (.join first kind) (.join first kind)
  cases disjunction with
  | single conjunction => exact (conjunct conjunction).imp .single .single
  | join first kind conjunction =>
    exact (conjunct conjunction).imp (.join first kind) (.join first kind)

section Texts

variable {text more : String} {bad finish : Token} {rest : List Token} {problem : Problem}

theorem parse_reports (ends : Ending Bare w tokens formula) (malformed : bad.problem? = some problem)
    (placed : Placed ((tokens ++ bad :: rest).length + 1) tokens (bad :: rest) finish) :
    Reports parse ⟨tokens ++ bad :: rest, finish, 0⟩ problem :=
  .behind (run_budget _) (stumbles_within ends _ bad rest finish problem 0 malformed placed)

/-- Behind a formula and a full stop, only the end of the input would do. -/
theorem parse_reports_behind {dot : Token} (disjunction : Disjunction w tokens formula)
    (kind : dot.kind = .dot) (malformed : bad.problem? = some problem)
    (placed : Placed ((tokens ++ dot :: bad :: rest).length + 1) tokens (dot :: bad :: rest) finish) :
    Reports (do let formula ← parse; Parser.finish; return formula)
      ⟨tokens ++ dot :: bad :: rest, finish, 0⟩ problem := by
  have stops : Kind.dot ∉ disjunctionCarriers := by decide
  obtain ⟨_, count, -, -, ran⟩ := disjunction.parsed
    ⟨placed, formed_of_kind kind (by decide), fun carried => stops (kind ▸ carried)⟩ 0
  exact .behind ran ((reports_finish kind malformed).bind _)

/-- A text with a malformed token is read as no formula. -/
theorem not_read_of_malformed (malformed : bad.problem? = some problem)
    (member : bad ∈ scan .start text.toList) : read text ≠ .ok formula := by
  intro done
  obtain ⟨_, _, spans, -⟩ := exists_phrase_of_read done
  cases malformed.symm.trans (spans.formed bad (significant_eq _ ▸ member))

/-- A text that is read as a formula, with a malformed token at the beginning of a line behind it, is
read as none. What is reported is the token, unless the text ends with a group that is no literal in
parentheses. -/
theorem read_malformed (done : read text = .ok formula) (malformed : bad.problem? = some problem)
    (scanned : scan ((Position.start.after text.toList).next '\n') more.toList = bad :: rest) :
    ∃ error, read (text ++ "\n" ++ more) = .error error ∧
      (error = .ofProblem (Text.lines (text ++ "\n" ++ more)) problem ∨
        ∃ other, Ending Grouped 0 (scan .start text.toList) other ∧
          ¬ Ending Bare 0 (scan .start text.toList) other) := by
  obtain ⟨other, tokens, spans, disjunction⟩ := exists_phrase_of_read done
  obtain ⟨trail, trails, split, -⟩ := spans.start
  have formed : ∀ token ∈ scan .start text.toList, token.problem? = none := by
    rw [← significant_eq]
    exact spans.formed
  have whole : scan .start (text ++ "\n" ++ more).toList = tokens ++ (trail ++ bad :: rest) := by
    rw [String.toList_append, String.toList_append, List.append_assoc]
    show scan .start (text.toList ++ '\n' :: more.toList) = _
    rw [scan_line formed, scanned, split, List.append_assoc]
  have start : Parser.start (text ++ "\n" ++ more) =
      ⟨tokens ++ (trail ++ bad :: rest), finishOf (text ++ "\n" ++ more), 0⟩ := by
    rw [start_eq, whole]
  have placed : Placed ((tokens ++ (trail ++ bad :: rest)).length + 1) tokens (trail ++ bad :: rest)
      (finishOf (text ++ "\n" ++ more)) :=
    ⟨rfl, fun token member => spelled_scan (whole ▸ member), spans.formed_tokens,
      Nat.lt_succ_self _⟩
  rcases trails with rfl | ⟨dot, kind, rfl⟩
  · by_cases bare : Ending Bare 0 tokens other
    · refine ⟨_, read_of_reports ?_, .inl rfl⟩
      rw [start]
      exact (parse_reports bare malformed placed).bind _
    · have grouped := disjunction.bare_or_grouped.resolve_left bare
      have member : bad ∈ scan .start (text ++ "\n" ++ more).toList := whole ▸ by simp
      cases result : read (text ++ "\n" ++ more) with
      | ok formula => exact absurd result (not_read_of_malformed malformed member)
      | error error =>
        rw [split, List.append_nil]
        exact ⟨error, rfl, .inr ⟨other, grouped, bare⟩⟩
  · refine ⟨_, read_of_reports ?_, .inl rfl⟩
    rw [start]
    exact parse_reports_behind disjunction kind malformed placed

/-- An unfinished comment is reported at its place, unless the text before it ends with a group that is
no literal in parentheses. -/
theorem read_comment (done : read text = .ok formula) :
    ∃ error, read (text ++ "\n/* x") = .error error ∧
      (error.cause = .unterminatedComment ∧
          error.line = (Position.start.after text.toList).line + 1 ∧ error.column = 1 ∨
        ∃ other, Ending Grouped 0 (scan .start text.toList) other ∧
          ¬ Ending Bare 0 (scan .start text.toList) other) := by
  let position := (Position.start.after text.toList).next '\n'
  let bad : Token := ⟨.blockComment, "/* x".toList, position, false⟩
  have malformed : bad.problem? = some ⟨.unterminatedComment, bad, Bool.false_ne_true.elim⟩ := rfl
  have scanned : scan position "/* x".toList = [bad] := rfl
  obtain ⟨error, failed, reported⟩ := read_malformed done malformed scanned
  rw [String.append_assoc] at failed
  refine ⟨error, failed, reported.imp_left ?_⟩
  rintro rfl
  exact ⟨rfl, rfl, rfl⟩

/-- Behind a group of a conjunction, not the comment is reported but the sign of the conjunction, where
a term in parentheses would have ended. -/
theorem read_comment_group : ∃ error, read "(a & b)\n/* x" = .error error ∧
    error.cause = .expected .parenEnd ∧ error.token.kind = .ampersand ∧
      error.line = 1 ∧ error.column = 4 :=
  ⟨_, rfl, rfl, rfl, rfl, rfl⟩

end Texts

end AgentSpeak.Formula
