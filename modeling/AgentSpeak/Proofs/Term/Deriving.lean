import AgentSpeak.Proofs.Source.Deriving
import AgentSpeak.Proofs.Source.Phrase
import AgentSpeak.Proofs.Term.Accepting

/-!
Whatever is read as a term is derived by the grammar from the tokens that have been read. Each step of
reading gives its part of the derivation and counts just the wildcards among its tokens. So a text is read
as a term exactly if the grammar derives that term from its tokens.
-/

namespace AgentSpeak.Term

open Source (Parser ParseError Phrase Token Kind Cursor Passes upcoming_eq wildcards
  wildcards_cons_of_eq wildcards_cons_of_ne wildcards_joined wildcards_enclosed)
open Source.Parser

/-- Tokens make up a value, and between two counts just their own wildcards are counted. -/
def Counted {α : Type} (derives : Nat → List Token → α → Prop) (low high : Nat)
    (tokens : List Token) (value : α) : Prop :=
  high = low + wildcards tokens ∧ derives low tokens value

section Counted

variable {α : Type} {derives others : Nat → List Token → α → Prop} {low high : Nat} {token : Token}
  {tokens : List Token} {value : α}

theorem Counted.mono (counted : Counted derives low high tokens value)
    (more : derives low tokens value → others low tokens value) :
    Counted others low high tokens value :=
  ⟨counted.1, more counted.2⟩

theorem counted_token {kind : Kind} (same : token.kind = kind) (derived : derives low [token] value)
    (solid : kind ≠ .wildcard := by decide) : Counted derives low low [token] value := by
  refine ⟨?_, derived⟩
  rw [wildcards_cons_of_ne (same ▸ solid)]
  rfl

end Counted

section Steps

variable {expression : Parser Term} (derives : Derives (Counted Expression) expression)

include derives

theorem derivesAt_items (fuel : Nat) {cursor : Cursor} (ended : cursor.finish.kind = .endOfInput)
    (enough : cursor.upcoming.length < fuel) :
    DerivesAt (Counted Items cursor.wildcards) cursor (commaSeparated expression fuel) := by
  induction fuel generalizing cursor with
  | zero => exact absurd enough (Nat.not_lt_zero _)
  | succ fuel ih =>
    rw [commaSeparated]
    refine derivesAt_bind (derives cursor ended) fun item middle tokens passes derived => ?_
    obtain ⟨count, derivation⟩ := derived
    have ended' : middle.finish.kind = .endOfInput := passes.finish ▸ ended
    refine derivesAt_accept ended' (by decide) (fun comma => ?_) fun _ => ?_
    · have shorter : (behind middle).upcoming.length < fuel := by
        rw [passes.split, upcoming_eq ended' (comma ▸ by decide), List.length_append,
          List.length_cons] at enough
        omega
      refine derivesAt_map (ih ended' shorter) fun high more items derived => ?_
      obtain ⟨count', derivation'⟩ := derived
      constructor
      · rw [wildcards_joined (comma ▸ by decide), ← Nat.add_assoc, ← count]
        exact count'
      · rw [behind, count] at derivation'
        exact .more derivation comma derivation'
    · apply derivesAt_pure
      rw [List.append_nil]
      exact ⟨count, .single derivation⟩

/-- Behind a name there are arguments in parentheses or none. -/
theorem derives_arguments (functor : String) :
    Derives (Counted fun w tokens terms => ∀ token : Token, token.kind = .functor →
      String.ofList token.text = functor → Literal w (token :: tokens) (literal functor terms))
        (parseArguments expression functor) := by
  intro cursor ended
  refine derivesAt_accept ended (by decide) (fun opened => ?_) fun _ => ?_
  · have ended' : (behind cursor).finish.kind = .endOfInput := ended
    refine derivesAt_check fun isEmpty found => ?_
    by_cases closed : (behind cursor).token.kind = .closeParen
    · rw [found, decide_eq_true closed]
      simp only [if_true, pure_bind]
      refine derivesAt_expect ended' (by decide) fun closed => ?_
      refine derivesAt_pure ⟨?_, ?_⟩
      · rw [wildcards_cons_of_ne (opened ▸ by decide), wildcards_cons_of_ne (closed ▸ by decide)]
        rfl
      · rintro token kind rfl
        exact .empty kind opened closed
    · rw [found, decide_eq_false closed]
      apply derivesAt_budget
      apply derivesAt_bind (derivesAt_items derives _ ended' (Nat.lt_succ_self _))
      rintro terms middle tokens passes ⟨count, items⟩
      have ended'' : middle.finish.kind = .endOfInput := passes.finish ▸ ended'
      refine derivesAt_expect ended'' (by decide) fun closed => ?_
      refine derivesAt_pure ⟨?_, ?_⟩
      · rw [wildcards_enclosed (opened ▸ by decide) (closed ▸ by decide)]
        exact count
      · rintro token kind rfl
        rw [items.literal_eq]
        exact .call kind opened items closed
  · refine derivesAt_pure ⟨rfl, ?_⟩
    rintro token kind rfl
    exact .name kind

theorem derives_literal : Derives (Counted Literal) (parseLiteralWith expression) := by
  intro cursor ended
  refine derivesAt_peek fun formed => ?_
  split
  next kind =>
    apply derivesAt_advance ended kind (by decide)
    exact derivesAt_pure (counted_token kind (.truth kind))
  next kind =>
    apply derivesAt_advance ended kind (by decide)
    exact derivesAt_pure (counted_token kind (.falsity kind))
  next kind =>
    apply derivesAt_advance ended kind (by decide)
    apply derivesAt_map (derives_arguments derives _ (behind cursor) ended)
    rintro high tokens terms ⟨count, literal⟩
    refine ⟨?_, literal _ kind rfl⟩
    rw [wildcards_cons_of_ne (kind ▸ by decide)]
    exact count
  next => exact derivesAt_fail _

/-- Behind an opening bracket there is the rest of a list. -/
theorem derives_list :
    Derives (Counted fun w tokens term => ∀ opening : Token, opening.kind = .openBracket →
      Primary w (opening :: tokens) term) (parseListWith expression) := by
  intro cursor ended
  refine derivesAt_accept ended (by decide) (fun closed => ?_) fun _ => ?_
  · exact derivesAt_pure (counted_token closed fun opening opened => .nil opened closed)
  · apply derivesAt_budget
    apply derivesAt_bind (derivesAt_items derives _ ended (Nat.lt_succ_self _))
    rintro terms middle tokens passes ⟨count, items⟩
    have ended' : middle.finish.kind = .endOfInput := passes.finish ▸ ended
    refine derivesAt_accept ended' (by decide) (fun bar => ?_) fun _ => ?_
    · apply derivesAt_bind (derives (behind middle) ended')
      rintro tail last tokens' passes' ⟨count', derivation⟩
      have ended'' : last.finish.kind = .endOfInput := passes'.finish ▸ ended'
      refine derivesAt_expect ended'' (by decide) fun closed => ?_
      rw [behind, count] at derivation
      refine derivesAt_pure ⟨?_, fun opening opened => ?_⟩
      · rw [wildcards_joined (bar ▸ by decide), wildcards_joined (closed ▸ by decide),
          ← Nat.add_assoc, ← count]
        exact count'
      · have whole := Primary.listTail opened items bar derivation closed
        rwa [List.append_assoc] at whole
    · simp only [Bool.false_eq_true, if_false, pure_bind]
      refine derivesAt_expect ended' (by decide) fun closed => ?_
      refine derivesAt_pure ⟨?_, fun opening opened => .list opened items closed⟩
      rw [wildcards_joined (closed ▸ by decide)]
      exact count

theorem derives_primary : Derives (Counted Primary) (parsePrimaryWith expression) := by
  have literal (cursor : Cursor) (ended : cursor.finish.kind = .endOfInput) :
      DerivesAt (Counted Primary cursor.wildcards) cursor (parseLiteralWith expression) :=
    (derives_literal derives cursor ended).mono fun counted => counted.mono .literal
  intro cursor ended
  have ended' : (behind cursor).finish.kind = .endOfInput := ended
  refine derivesAt_peek fun formed => ?_
  split
  next kind =>
    apply derivesAt_advance ended kind (by decide)
    unfold numberOf
    split
    next read => exact derivesAt_pure (counted_token kind (.number kind read))
    next => exact derivesAt_throw _
  next kind =>
    apply derivesAt_advance ended kind (by decide)
    exact derivesAt_pure (counted_token kind (.string kind))
  next kind =>
    apply derivesAt_advance ended kind (by decide)
    exact derivesAt_pure (counted_token kind (.variableName kind))
  next kind =>
    apply derivesAt_advance ended kind (by decide)
    refine derivesAt_wildcard (derivesAt_pure ⟨?_, .wildcard kind⟩)
    rw [wildcards_cons_of_eq kind]
    rfl
  next => exact literal cursor ended
  next => exact literal cursor ended
  next => exact literal cursor ended
  next opened =>
    apply derivesAt_advance ended opened (by decide)
    apply derivesAt_bind (derives (behind cursor) ended')
    rintro inner middle tokens passes ⟨count, derivation⟩
    have ended'' : middle.finish.kind = .endOfInput := passes.finish ▸ ended'
    refine derivesAt_expect ended'' (by decide) fun closed => ?_
    refine derivesAt_pure ⟨?_, .group opened derivation closed⟩
    rw [wildcards_enclosed (opened ▸ by decide) (closed ▸ by decide)]
    exact count
  next opened =>
    apply derivesAt_advance ended opened (by decide)
    refine (derives_list derives (behind cursor) ended').mono fun counted => ?_
    obtain ⟨count, derivation⟩ := counted
    refine ⟨?_, derivation _ opened⟩
    rw [wildcards_cons_of_ne (opened ▸ by decide)]
    exact count
  next => exact derivesAt_fail _

end Steps

/-- A minus sign makes a signed term of one. -/
theorem Signed.negate {w : Nat} {tokens : List Token} {sign : Token} {term : Term}
    (operand : Signed w tokens term) (kind : sign.kind = .minus) :
    Signed w (sign :: tokens) term.negate := by
  by_cases number : ∃ value, term = .number value
  · obtain ⟨value, rfl⟩ := number
    exact .folded kind operand
  · have unlike : ∀ value, term ≠ .number value := not_exists.mp number
    rw [negate_of_ne_number unlike]
    exact .minus kind operand unlike

theorem derives_unary {primary : Parser Term} (derives : Derives (Counted Primary) primary)
    (fuel : Nat) : Derives (Counted Signed) (parseUnary primary fuel) := by
  have single (cursor : Cursor) (ended : cursor.finish.kind = .endOfInput) :
      DerivesAt (Counted Signed cursor.wildcards) cursor primary :=
    (derives cursor ended).mono fun counted => counted.mono .single
  induction fuel with
  | zero => exact single
  | succ fuel ih =>
    intro cursor ended
    refine derivesAt_accept ended (by decide) (fun kind => ?_) fun _ => single cursor ended
    apply derivesAt_map (ih (behind cursor) ended)
    rintro high tokens operand ⟨count, derivation⟩
    refine ⟨?_, derivation.negate kind⟩
    rw [wildcards_cons_of_ne (kind ▸ by decide)]
    exact count

theorem derives_power {unary : Parser Term} (derives : Derives (Counted Signed) unary) (fuel : Nat) :
    Derives (Counted Power) (parsePower unary fuel) := by
  induction fuel with
  | zero => exact fun cursor ended =>
      (derives cursor ended).mono fun counted => counted.mono .single
  | succ fuel ih =>
    intro cursor ended
    apply derivesAt_bind (derives cursor ended)
    rintro base middle tokens passes ⟨count, derivation⟩
    have ended' : middle.finish.kind = .endOfInput := passes.finish ▸ ended
    refine derivesAt_accept ended' (by decide) (fun kind => ?_) fun _ => ?_
    · apply derivesAt_map (ih (behind middle) ended')
      rintro high tokens' exponent ⟨count', derivation'⟩
      rw [behind, count] at derivation'
      refine ⟨?_, .power derivation kind derivation'⟩
      rw [wildcards_joined (kind ▸ by decide), ← Nat.add_assoc, ← count]
      exact count'
    · apply derivesAt_pure
      rw [List.append_nil]
      exact ⟨count, .single derivation⟩

theorem listed_of_additive? {kind : Kind} {combine : Term → Term → Term}
    (found : additive? kind = some combine) :
    ∃ functor, (kind, functor) ∈ sums ∧
      combine = fun left right => .compound functor [left, right] := by
  unfold additive? at found
  split at found <;> cases found
  · exact ⟨"+", by decide, rfl⟩
  · exact ⟨"-", by decide, rfl⟩

theorem listed_of_multiplicative? {kind : Kind} {combine : Term → Term → Term}
    (found : multiplicative? kind = some combine) :
    ∃ functor, (kind, functor) ∈ products ∧
      combine = fun left right => .compound functor [left, right] := by
  unfold multiplicative? at found
  split at found <;> cases found
  · exact ⟨"*", by decide, rfl⟩
  · exact ⟨"/", by decide, rfl⟩
  · exact ⟨"div", by decide, rfl⟩
  · exact ⟨"mod", by decide, rfl⟩

/-- What is made of operands with signs between them is derived as the operands are. -/
theorem derives_joined {operator? : Kind → Option (Term → Term → Term)}
    {table : List (Kind × String)} {chains operands : Nat → List Token → Term → Prop}
    {operand : Parser Term}
    (listed : ∀ {kind : Kind} {combine : Term → Term → Term}, operator? kind = some combine →
      ∃ functor, (kind, functor) ∈ table ∧
        combine = fun left right => .compound functor [left, right])
    (solid : ∀ entry ∈ table, entry.1 ≠ .wildcard) (none : operator? .endOfInput = none)
    (single : ∀ {w : Nat} {tokens : List Token} {term : Term}, operands w tokens term →
      chains w tokens term)
    (join : ∀ {w : Nat} {before after : List Token} {sign : Token} {functor : String}
      {left right : Term}, chains w before left → (sign.kind, functor) ∈ table →
        operands (w + wildcards before) after right →
          chains w (before ++ sign :: after) (.compound functor [left, right]))
    (derives : Derives (Counted operands) operand) :
    Derives (Counted chains) (chain operator? operand) := by
  refine derives_chain ?_ none derives fun ⟨count, derivation⟩ => ⟨count, single derivation⟩
  rintro low middle high before after sign left right combine found ⟨rfl, first⟩ ⟨rfl, second⟩
  obtain ⟨functor, entry, rfl⟩ := listed found
  constructor
  · rw [wildcards_joined (solid _ entry), Nat.add_assoc]
  · exact join first entry second

/-- However deep expressions may nest, they are derived. -/
theorem derives_within (depth : Nat) : Derives (Counted Expression) (parseWithin depth) := by
  induction depth with
  | zero => exact fun _ _ => derivesAt_fail _
  | succ depth ih =>
    have signed : Derives (Counted Signed) (signedWithin depth) := fun cursor ended =>
      derivesAt_budget (derives_unary (derives_primary ih) _ cursor ended)
    have power : Derives (Counted Power) (powerWithin depth) := fun cursor ended =>
      derivesAt_budget (derives_power signed _ cursor ended)
    have product : Derives (Counted Product) (productWithin depth) :=
      derives_joined listed_of_multiplicative? products_solid rfl .single .product power
    exact derives_joined listed_of_additive? sums_solid rfl .single .sum product

theorem derives_parse : Derives (Counted Expression) parse :=
  fun cursor ended => derivesAt_budget (derives_within _ cursor ended)

variable {text : String} {term : Term}

theorem phrase_of_read (done : read text = .ok term) : Phrase Expression text term := by
  obtain ⟨tokens, _, spans, -, derivation⟩ := Parser.exists_of_read derives_parse done
  exact ⟨tokens, spans, derivation⟩

/-- Every number that is read has a text. -/
theorem isWritable_of_read (done : read text = .ok term) : term.isWritable = true := by
  obtain ⟨_, -, derivation⟩ := phrase_of_read done
  exact derivation.isWritable

theorem read_of_phrase (phrase : Phrase Expression text term) : read text = .ok term := by
  obtain ⟨tokens, spans, derivation⟩ := phrase
  obtain ⟨rest, trails, -, start⟩ := spans.start
  obtain ⟨listed, formed⟩ := trails.edge text
  have stops : ∀ kind ∈ [Source.Kind.dot, .endOfInput], kind ∉ expressionCarriers := by decide
  have ran := derivation.parsed spans.formed_tokens rest _ formed (stops _ listed)
  rw [← start] at ran
  exact Parser.read_of_run ran trails

/-- Reading gives just the terms that a text's tokens make up; any other text is an error. -/
theorem read_iff_phrase (text : String) :
    (∀ term, read text = .ok term ↔ Phrase Expression text term) ∧
      ((¬ ∃ term, Phrase Expression text term) ↔ ∃ error, read text = .error error) := by
  refine ⟨fun term => ⟨phrase_of_read, read_of_phrase⟩, ?_⟩
  cases outcome : read text with
  | ok term => simpa using ⟨term, phrase_of_read outcome⟩
  | error error =>
    have none : ¬ ∃ term, Phrase Expression text term := by
      rintro ⟨term, phrase⟩
      cases outcome.symm.trans (read_of_phrase phrase)
    simpa using none

end AgentSpeak.Term
