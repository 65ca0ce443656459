import AgentSpeak.Proofs.Formula.Grammar
import AgentSpeak.Proofs.Term.Deriving

/-!
Whatever is read as a formula is derived by the grammar from the tokens that have been read. Attempts
count wildcards that they give back, so that only the tokens are known to make up a formula, and behind
any number of wildcards.
-/

namespace AgentSpeak

open Source (Parser Token Kind Cursor Passes wildcards)
open Source.Parser

namespace Term

/-- What makes up a term behind some wildcards does so behind any number of them. -/
theorem Counted.anywhere {low high : Nat} {tokens : List Token} {term : Term}
    (counted : Counted Expression low high tokens term) (w : Nat) :
    Expression w tokens (term.rename (recount low w)) :=
  counted.2.recount w

end Term

namespace Formula

open Term (Expression Counted)

/-- Tokens make up a formula behind any number of wildcards. -/
def Derivable (grammar : Nat → List Token → Formula → Prop) (tokens : List Token) : Prop :=
  ∀ w, ∃ formula, grammar w tokens formula

/-- A parser reads nothing but tokens that make up a formula. -/
abbrev ReadsFrom (grammar : Nat → List Token → Formula → Prop) (parser : Parser Formula) : Prop :=
  Derives (fun _ _ tokens _ => Derivable grammar tokens) parser

theorem listed_of_relation? {kind : Kind} {relation : Relation}
    (found : relation? kind = some relation) : (kind, relation) ∈ relations := by
  unfold relation? at found
  split at found <;> cases found <;> decide

/-- A relation is read with its right side, or nothing. -/
theorem derives_relation (left : Term) :
    Derives (fun _ _ tokens found => (found = none ∧ tokens = []) ∨
      ∃ formula sign after relation, found = some formula ∧ tokens = sign :: after ∧
        (sign.kind, relation) ∈ relations ∧ ∀ w, ∃ right, Expression w after right)
      (parseRelation? left) := by
  intro cursor ended
  refine derivesAt_peek fun formed => ?_
  split
  next relation found =>
    have listed := listed_of_relation? found
    have solid : cursor.token.kind ≠ .endOfInput := by
      intro end'
      rw [end'] at found
      cases found
    apply derivesAt_advance ended rfl solid
    refine derivesAt_map (Term.derives_parse (behind cursor) ended) fun high tokens right counted => ?_
    exact .inr ⟨_, cursor.token, tokens, relation, rfl, rfl, listed, fun w => ⟨_, counted.anywhere w⟩⟩
  next => exact derivesAt_pure (.inl ⟨rfl, rfl⟩)

theorem readsFrom_atomic : ReadsFrom Operand parseAtomic := by
  intro cursor ended
  refine derivesAt_peek fun formed => ?_
  refine derivesAt_bind (Term.derives_parse cursor ended) fun left middle tokens passes counted => ?_
  refine derivesAt_bind (derives_relation left middle (passes.finish ▸ ended)) ?_
  rintro found last more - (⟨rfl, rfl⟩ | ⟨formula, sign, after, relation, rfl, rfl, listed, right⟩)
  · simp only
    split
    next plain =>
      refine derivesAt_pure fun w => ?_
      rw [List.append_nil, List.append_nil]
      have plain' := (Term.isPlainLiteral_rename (Term.recount cursor.wildcards w) left).trans plain
      exact ⟨_, .literal (counted.anywhere w) plain'⟩
    next => exact derivesAt_throw _
  · refine derivesAt_pure fun w => ?_
    obtain ⟨right, second⟩ := right (w + wildcards tokens)
    rw [List.append_nil]
    exact ⟨_, .relation (counted.anywhere w) listed second⟩

section Steps

variable {formula : Parser Formula} (reads : ReadsFrom Disjunction formula)

include reads

theorem derivesAt_group {cursor : Cursor} (ended : cursor.finish.kind = .endOfInput)
    (opened : cursor.token.kind = .openParen) :
    DerivesAt (fun _ tokens found => (found = none ∧ tokens = []) ∨
      ∃ inner, found = some inner ∧ Derivable Operand tokens) cursor (parseGroup? formula) := by
  refine derivesAt_attempt (derivesAt_advance ended opened (by decide) ?_)
  refine derivesAt_bind (reads (behind cursor) ended) fun inner middle tokens passes derivable => ?_
  have ended' : middle.finish.kind = .endOfInput := passes.finish ▸ ended
  refine derivesAt_expect ended' (by decide) fun closed => ?_
  refine derivesAt_peek fun formed => ?_
  split
  · exact derivesAt_pure fun _ absent => nomatch absent
  · refine derivesAt_pure fun _ _ w => ?_
    obtain ⟨inside, disjunction⟩ := derivable w
    exact ⟨inside, .group opened disjunction closed⟩

theorem readsFrom_simple : ReadsFrom Operand (parseSimple formula) := by
  intro cursor ended
  refine derivesAt_check fun isGroup same => ?_
  by_cases opened : cursor.token.kind = .openParen
  · rw [same, decide_eq_true opened]
    apply derivesAt_bind (derivesAt_group reads ended opened)
    rintro found middle tokens passes (⟨rfl, rfl⟩ | ⟨inner, rfl, derivable⟩)
    · exact readsFrom_atomic middle (passes.finish ▸ ended)
    · apply derivesAt_pure
      rw [List.append_nil]
      exact derivable
  · rw [same, decide_eq_false opened]
    exact readsFrom_atomic cursor ended

theorem readsFrom_negation (fuel : Nat) : ReadsFrom Operand (parseNegation formula fuel) := by
  induction fuel with
  | zero => exact readsFrom_simple reads
  | succ fuel ih =>
    intro cursor ended
    refine derivesAt_accept ended (by decide) (fun kind => ?_) fun _ => ?_
    · refine derivesAt_map (ih (behind cursor) ended) fun high tokens inner derivable w => ?_
      obtain ⟨operand, derivation⟩ := derivable w
      exact ⟨_, .negation kind derivation⟩
    · exact readsFrom_simple reads cursor ended

end Steps

theorem sign_of_conjunction? {kind : Kind} {combine : Formula → Formula → Formula}
    (found : conjunction? kind = some combine) : kind = .ampersand := by
  cases kind <;> first | rfl | cases found

theorem sign_of_disjunction? {kind : Kind} {combine : Formula → Formula → Formula}
    (found : disjunction? kind = some combine) : kind = .bar := by
  cases kind <;> first | rfl | cases found

/-- What is made of operands with a connective's sign between them is derived as the operands are. -/
theorem readsFrom_chain {operator? : Kind → Option (Formula → Formula → Formula)} {kind : Kind}
    {combine : Formula → Formula → Formula} {chains operands : Nat → List Token → Formula → Prop}
    {operand : Parser Formula}
    (only : ∀ {sign : Kind} {joint : Formula → Formula → Formula}, operator? sign = some joint →
      sign = kind) (none : operator? .endOfInput = none)
    (single : ∀ {w : Nat} {tokens : List Token} {formula : Formula}, operands w tokens formula →
      chains w tokens formula)
    (join : ∀ {w : Nat} {before after : List Token} {sign : Token} {left right : Formula},
      chains w before left → sign.kind = kind → operands (w + wildcards before) after right →
        chains w (before ++ sign :: after) (combine left right))
    (reads : ReadsFrom operands operand) : ReadsFrom chains (chain operator? operand) := by
  refine derives_chain ?_ none reads fun derivable w => ?_
  · intro low middle high before after sign left right joint found first second w
    obtain ⟨left, first⟩ := first w
    obtain ⟨right, second⟩ := second (w + wildcards before)
    exact ⟨_, join first (only found) second⟩
  · obtain ⟨formula, derivation⟩ := derivable w
    exact ⟨formula, single derivation⟩

/-- However deep groups may nest, they are derived. -/
theorem readsFrom_within (depth : Nat) : ReadsFrom Disjunction (parseWithin depth) := by
  induction depth with
  | zero => exact fun _ _ => derivesAt_fail _
  | succ depth ih =>
    have operand : ReadsFrom Operand (do parseNegation (parseWithin depth) (← budget)) :=
      fun cursor ended => derivesAt_budget (readsFrom_negation ih _ cursor ended)
    have conjunct : ReadsFrom Conjunction (chain conjunction? _) :=
      readsFrom_chain sign_of_conjunction? rfl .single .join operand
    exact readsFrom_chain sign_of_disjunction? rfl .single .join conjunct

theorem readsFrom_parse : ReadsFrom Disjunction parse :=
  fun cursor ended => derivesAt_budget (readsFrom_within _ cursor ended)

end Formula

end AgentSpeak
