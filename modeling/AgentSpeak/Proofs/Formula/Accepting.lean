import AgentSpeak.Proofs.Formula.Grammar
import AgentSpeak.Proofs.Formula.Operand
import AgentSpeak.Proofs.Term.Accepting

/-!
Whatever the grammar of formulas derives is read, behind any number of wildcards. Where an opening
parenthesis is first read as that of a group, what follows the group shows whether that was right; in
vain it costs nothing but numbers for wildcards.
-/

namespace AgentSpeak

open Source (Parser Token Kind Cursor edge wildcards formed_of_kind)
open Source.Parser

namespace Formula

open Term (Spelled Expression Consecutive Begins recount)

/-- What carries on an operand of a conjunction: what carries on its last term, and a relation. -/
def operandCarriers : List Kind :=
  relations.map Prod.fst ++ Term.expressionCarriers

def conjunctionCarriers : List Kind :=
  .ampersand :: operandCarriers

def disjunctionCarriers : List Kind :=
  .bar :: conjunctionCarriers

theorem relation?_of_listed {kind : Kind} {relation : Relation}
    (listed : (kind, relation) ∈ relations) :
    relation? kind = some relation ∧ kind ∉ Term.expressionCarriers := by
  simp only [relations, List.mem_cons, Prod.mk.injEq, List.not_mem_nil, or_false] at listed
  rcases listed with ⟨rfl, rfl⟩ | ⟨rfl, rfl⟩ | ⟨rfl, rfl⟩ | ⟨rfl, rfl⟩ | ⟨rfl, rfl⟩ | ⟨rfl, rfl⟩ |
    ⟨rfl, rfl⟩ <;> exact ⟨rfl, by decide⟩

theorem relation?_stops (kind : Kind) (ends : kind ∉ operandCarriers) : relation? kind = none := by
  cases kind <;> first | rfl | exact absurd (by decide) ends

theorem conjunction?_stops (kind : Kind) (ends : kind ∉ conjunctionCarriers) :
    conjunction? kind = none := by
  cases kind <;> first | rfl | exact absurd (by decide) ends

theorem disjunction?_stops (kind : Kind) (ends : kind ∉ disjunctionCarriers) :
    disjunction? kind = none := by
  cases kind <;> first | rfl | exact absurd (by decide) ends

/-- Well-formed tokens in a text that has not too many of them. -/
structure Placed (bound : Nat) (tokens rest : List Token) (finish : Token) : Prop where
  ended : finish.kind = .endOfInput
  spelled : ∀ token ∈ tokens ++ rest, Spelled token
  formed : ∀ token ∈ tokens, token.problem? = none
  few : (tokens ++ rest).length < bound

/-- Such tokens up to one that does not carry them on. -/
structure Followed (carriers : List Kind) (bound : Nat) (tokens rest : List Token) (finish : Token) :
    Prop extends Placed bound tokens rest finish where
  next : (edge rest finish).problem? = none
  stops : (edge rest finish).kind ∉ carriers

/-- A parser gives a formula like one that some tokens make up, behind any number of wildcards. -/
def Accepts (carriers : List Kind) (bound : Nat) (parser : Parser Formula) (tokens : List Token)
    (formula : Formula) : Prop :=
  ∀ rest finish c, Followed carriers bound tokens rest finish →
    ∃ other count, c ≤ count ∧ Like c count formula other ∧
      parser ⟨tokens ++ rest, finish, c⟩ = (.ok other, ⟨rest, finish, count⟩)

/-- A chain has read some tokens as a formula and can go on behind them. -/
def AcceptsChain (operator? : Kind → Option (Formula → Formula → Formula)) (carriers : List Kind)
    (bound : Nat) (operand : Parser Formula) (tokens : List Token) (formula : Formula) : Prop :=
  ∀ rest finish c, Followed carriers bound tokens rest finish →
    ∃ other count fuel, c ≤ count ∧ Like c count formula other ∧ rest.length < fuel ∧
      chain operator? operand ⟨tokens ++ rest, finish, c⟩ =
        chainFrom operator? operand fuel other ⟨rest, finish, count⟩

section Followed

variable {carriers others : List Kind} {bound : Nat} {tokens before after rest : List Token}
  {token opening closing finish : Token}

/-- Tokens among others. -/
theorem Placed.part (placed : Placed bound tokens rest finish) (used : List Token) {less : Nat}
    (split : tokens ++ rest = used ++ (before ++ after)) (own : before ⊆ tokens)
    (fewer : bound ≤ less + used.length) : Placed less before after finish := by
  have few := placed.few
  rw [split, List.length_append] at few
  refine ⟨placed.ended, fun token member => placed.spelled token ?_,
    fun token member => placed.formed token (own member), by omega⟩
  rw [split]
  exact List.mem_append_right used member

theorem Placed.first (placed : Placed bound (before ++ token :: after) rest finish)
    (stops : token.kind ∉ others) : Followed others bound before (token :: (after ++ rest)) finish :=
  ⟨placed.part [] (by simp) (List.subset_append_left _ _) (Nat.le_refl _),
    placed.formed token (by simp), stops⟩

theorem Placed.second (placed : Placed bound (before ++ token :: after) rest finish) :
    Placed bound after rest finish :=
  placed.part (before ++ [token]) (by simp) (by simp) (Nat.le_add_right _ _)

theorem Placed.tail (placed : Placed bound (token :: tokens) rest finish) :
    Placed bound tokens rest finish :=
  placed.part [token] rfl (List.subset_cons_self _ _) (Nat.le_add_right _ _)

theorem Placed.inside (placed : Placed (bound + 1) (opening :: (tokens ++ [closing])) rest finish)
    (stops : closing.kind ∉ others) : Followed others bound tokens (closing :: rest) finish :=
  ⟨placed.part [opening] (by simp) (by simp) (Nat.le_refl _), placed.formed closing (by simp), stops⟩

theorem Followed.mono (followed : Followed carriers bound tokens rest finish)
    (fewer : others ⊆ carriers) : Followed others bound tokens rest finish :=
  { followed with stops := fun carried => followed.stops (fewer carried) }

theorem Followed.second (followed : Followed carriers bound (before ++ token :: after) rest finish)
    (fewer : others ⊆ carriers) : Followed others bound after rest finish :=
  { followed.mono fewer with toPlaced := followed.toPlaced.second }

end Followed

section Steps

variable {carriers others : List Kind} {bound depth w : Nat}
  {tokens before after rest : List Token} {token opening closing finish : Token}
  {operator? : Kind → Option (Formula → Formula → Formula)} {operand : Parser Formula}
  {formula left right : Formula}

theorem Accepts.chained (accepts : Accepts carriers bound operand tokens formula) :
    AcceptsChain operator? carriers bound operand tokens formula := by
  intro rest finish c followed
  obtain ⟨other, count, later, like, ran⟩ := accepts rest finish c followed
  refine ⟨other, count, rest.length + 1, later, like, Nat.lt_succ_self _, ?_⟩
  rw [chain, run_then ran, run_then (run_budget _)]

/-- A chain goes on over a connective's sign with formulas that share no wildcard. -/
theorem AcceptsChain.step {kind : Kind} {combine : Formula → Formula → Formula}
    (first : AcceptsChain operator? carriers bound operand before left) (same : token.kind = kind)
    (second : Accepts carriers bound operand after right)
    (found : operator? kind = some combine) (stops : kind ∉ carriers)
    (rename : ∀ π left right,
      (combine left right).rename π = combine (left.rename π) (right.rename π))
    (vars : ∀ left right, (combine left right).vars = left.vars ++ right.vars)
    (apart : ∀ n ∈ numbers left.vars, n ∉ numbers right.vars) :
    AcceptsChain operator? carriers bound operand (before ++ token :: after) (combine left right) := by
  subst same
  intro rest finish c followed
  have formed : token.problem? = none := followed.formed token (by simp)
  obtain ⟨left', middle, fuel, later, like, enough, ran⟩ :=
    first _ finish c (followed.first stops)
  obtain ⟨right', count, later', like', ran'⟩ :=
    second rest finish middle (followed.second (List.Subset.refl _))
  obtain ⟨fuel, rfl⟩ := Nat.exists_eq_add_one_of_ne_zero (Nat.ne_zero_of_lt enough)
  rw [List.length_cons, List.length_append] at enough
  refine ⟨combine left' right', count, fuel, Nat.le_trans later later',
    like_joined rename vars like like' apart later later', by omega, ?_⟩
  rw [List.append_assoc, List.cons_append, ran]
  apply run_chainFrom_step ?_ found ran' fuel left'
  exact formed

theorem AcceptsChain.ends (chained : AcceptsChain operator? carriers bound operand tokens formula)
    (more : carriers ⊆ others) (stops : ∀ kind, kind ∉ others → operator? kind = none) :
    Accepts others bound (chain operator? operand) tokens formula := by
  intro rest finish c followed
  obtain ⟨other, count, fuel, later, like, -, ran⟩ := chained rest finish c (followed.mono more)
  refine ⟨other, count, later, like, ?_⟩
  have formed : (Cursor.mk rest finish count).token.problem? = none := followed.next
  rw [ran, run_chainFrom_end formed (stops _ followed.stops)]

theorem accepts_within (each : ∀ less, AcceptsChain disjunction? conjunctionCarriers (less + 1)
      (chain conjunction? (negated less)) tokens formula) (depth : Nat) :
    Accepts disjunctionCarriers depth (parseWithin depth) tokens formula := by
  cases depth with
  | zero => exact fun rest finish c followed => absurd followed.few (Nat.not_lt_zero _)
  | succ less => exact (each less).ends (List.subset_cons_self _ _) disjunction?_stops

theorem accepts_group (opened : opening.kind = .openParen)
    (inner : Accepts disjunctionCarriers depth (parseWithin depth) tokens formula)
    (closed : closing.kind = .closeParen) :
    Accepts operandCarriers (depth + 1) (parseSimple (parseWithin depth))
      (opening :: (tokens ++ [closing])) formula := by
  intro rest finish c followed
  obtain ⟨other, count, later, like, ran⟩ :=
    inner _ finish c (followed.inside (closed ▸ by decide))
  have formed : (Cursor.mk (opening :: (tokens ++ closing :: rest)) finish c).token.problem? = none :=
    formed_of_kind opened (by decide)
  have formed' : (Cursor.mk (closing :: rest) finish count).token.problem? = none :=
    formed_of_kind closed (by decide)
  have unrelated := relation?_stops _ followed.stops
  have plain := Term.isArithmetic_stops (edge rest finish).kind fun carried =>
    followed.stops (List.mem_append_right _ carried)
  refine ⟨other, count, later, like, ?_⟩
  rw [List.cons_append, List.append_assoc]
  exact run_simple_some formed opened
    (run_group formed ran formed' closed followed.next unrelated plain)

section Atomic

variable {left right term : Term} {relation : Relation}

theorem Operand.recount_relation (first : Expression w before left)
    (listed : (token.kind, relation) ∈ relations)
    (second : Expression (w + wildcards before) after right) (c : Nat) :
    Operand c (before ++ token :: after)
      ((Formula.comparison relation left right).rename (recount w c)) := by
  have behind := second.recount (c + wildcards before)
  rw [second.consecutive.rename_ahead c] at behind
  exact .relation (first.recount c) listed behind

theorem like_recount {c : Nat} (operand : Operand c tokens (formula.rename (recount w c))) :
    Like c (c + wildcards tokens) formula (formula.rename (recount w c)) :=
  ⟨_, rfl, operand.consecutive.numbered⟩

theorem run_term (expression : Expression w tokens term)
    (followed : Followed Term.expressionCarriers bound tokens rest finish) (c : Nat) :
    Term.parse ⟨tokens ++ rest, finish, c⟩ =
      (.ok (term.rename (recount w c)), ⟨rest, finish, c + wildcards tokens⟩) :=
  (expression.recount c).parsed
    followed.formed rest finish followed.next followed.stops

theorem run_related (first : Expression w before left)
    (listed : (token.kind, relation) ∈ relations)
    (second : Expression (w + wildcards before) after right)
    (followed : Followed operandCarriers bound (before ++ token :: after) rest finish) (c : Nat) :
    parseAtomic ⟨before ++ token :: after ++ rest, finish, c⟩ =
      (.ok ((Formula.comparison relation left right).rename (recount w c)),
        ⟨rest, finish, c + wildcards (before ++ token :: after)⟩) := by
  obtain ⟨related, stops⟩ := relation?_of_listed listed
  have front := followed.first stops
  have ran := run_term first front c
  have ran' := run_term second (followed.second (List.subset_append_right _ _)) (c + wildcards before)
  rw [second.consecutive.rename_ahead c] at ran'
  rw [List.append_assoc, List.cons_append,
    Source.wildcards_joined (relations_solid _ listed), ← Nat.add_assoc]
  exact run_atomic_comparison ran front.next related ran'

/-- A relation is read as one also where it begins with a parenthesis: the parenthesis is no
group's. -/
theorem accepts_relation (first : Expression w before left)
    (listed : (token.kind, relation) ∈ relations)
    (second : Expression (w + wildcards before) after right) :
    Accepts operandCarriers (depth + 1) (parseSimple (parseWithin depth))
      (before ++ token :: after) (.comparison relation left right) := by
  intro rest finish c followed
  have like (c : Nat) := like_recount (Operand.recount_relation first listed second c)
  have atomic := run_related first listed second followed
  obtain ⟨related, stops⟩ := relation?_of_listed listed
  have ran := run_term first (followed.first stops) c
  have formed := (Term.parse_begins ran).1
  obtain ⟨opening, others, rfl, -⟩ := first.begins
  by_cases parenthesis : opening.kind = .openParen
  · have whole : opening :: others ++ token :: after ++ rest =
        opening :: (others ++ token :: (after ++ rest)) := by simp
    have spelled := followed.spelled
    have few := followed.few
    rw [whole] at spelled few
    obtain ⟨count, later, none⟩ := no_group followed.ended spelled formed
      (Nat.lt_of_succ_lt_succ few) parenthesis ran (related ▸ rfl)
    refine ⟨_, _, ?_, (like count).above later, ?_⟩
    · exact Nat.le_trans later (Nat.le_add_right _ _)
    · rw [← atomic count, whole]
      exact run_simple_none formed parenthesis none
  · refine ⟨_, _, Nat.le_add_right _ _, like c, ?_⟩
    rw [← atomic]
    exact run_simple_atomic formed parenthesis

theorem run_plain (expression : Expression w tokens term) (plain : term.isPlainLiteral = true)
    (followed : Followed operandCarriers bound tokens rest finish) (c : Nat) :
    parseAtomic ⟨tokens ++ rest, finish, c⟩ =
      (.ok ((Formula.literal term).rename (recount w c)), ⟨rest, finish, c + wildcards tokens⟩) := by
  have ran := run_term expression (followed.mono (List.subset_append_right _ _)) c
  have plain' : (term.rename (recount w c)).isPlainLiteral = true := by
    rw [Term.isPlainLiteral_rename, plain]
  exact run_atomic_literal ran followed.next (relation?_stops _ followed.stops) plain'

end Atomic

/-- Any number of negations is read before an operand, also none. -/
theorem accepts_unnegated (begins : Begins (.minus :: Term.primaryFirsts) tokens)
    (simple : Accepts operandCarriers bound (parseSimple (parseWithin depth)) tokens formula)
    (fuel : Nat) (enough : tokens.length < fuel) :
    Accepts operandCarriers bound (parseNegation (parseWithin depth) fuel) tokens formula := by
  obtain ⟨fuel, rfl⟩ := Nat.exists_eq_add_one_of_ne_zero (Nat.ne_zero_of_lt enough)
  obtain ⟨first, others, rfl, listed⟩ := begins
  have other : first.kind ≠ .notWord := fun same => absurd (same ▸ listed) (by decide)
  intro rest finish c followed
  obtain ⟨formula', count, later, like, ran⟩ := simple rest finish c followed
  have formed : (Cursor.mk (first :: others ++ rest) finish c).token.problem? = none :=
    followed.formed first (by simp)
  refine ⟨formula', count, later, like, ?_⟩
  rw [← ran]
  exact run_negation_simple formed other fuel

theorem accepts_negation {fuel : Nat} (negation : token.kind = .notWord)
    (operand : Accepts operandCarriers bound (parseNegation (parseWithin depth) fuel) tokens
      formula) :
    Accepts operandCarriers bound (parseNegation (parseWithin depth) (fuel + 1)) (token :: tokens)
      (.negation formula) := by
  intro rest finish c followed
  obtain ⟨other, count, later, ⟨f, same, numbered⟩, ran⟩ :=
    operand rest finish c { followed with toPlaced := followed.tail }
  have formed : (Cursor.mk (token :: tokens ++ rest) finish c).token.problem? = none :=
    formed_of_kind negation (by decide)
  refine ⟨.negation other, count, later, ⟨f, congrArg _ same, numbered⟩, ?_⟩
  exact run_negation_not formed negation ran

theorem accepts_negated (each : ∀ fuel, tokens.length < fuel →
      Accepts operandCarriers bound (parseNegation (parseWithin depth) fuel) tokens formula) :
    Accepts operandCarriers bound (negated depth) tokens formula := by
  intro rest finish c followed
  rw [negated, run_then (run_budget _)]
  refine each _ ?_ rest finish c followed
  rw [List.length_append]
  omega

/-- A literal in parentheses is read as a formula in parentheses. -/
theorem accepts_literal {term : Term} (expression : Expression w tokens term)
    (plain : term.isPlainLiteral = true) :
    Accepts operandCarriers (depth + 1) (parseSimple (parseWithin depth)) tokens
      (.literal term) := by
  induction depth using Nat.strongRecOn generalizing tokens with
  | ind depth ih =>
    by_cases begins : Begins [.openParen] tokens
    · obtain ⟨opening, inner, closing, rfl, opened, closed, expression⟩ :=
        expression.enclosed begins plain
      refine accepts_group opened ?_ closed
      cases depth with
      | zero => exact fun rest finish c followed => absurd followed.few (Nat.not_lt_zero _)
      | succ less =>
        have simple := ih less (Nat.lt_succ_self _) expression
        have operand := accepts_negated (accepts_unnegated expression.begins simple)
        have conjunct := operand.chained.ends (List.subset_cons_self _ _) conjunction?_stops
        exact conjunct.chained.ends (List.subset_cons_self _ _) disjunction?_stops
    · intro rest finish c followed
      have ran := run_plain expression plain followed c
      have operand := Operand.literal (expression.recount c)
        ((Term.isPlainLiteral_rename _ term).trans plain)
      obtain ⟨first, others, rfl, -⟩ := expression.begins
      have formed : first.problem? = none := followed.formed first (by simp)
      have noGroup : first.kind ≠ .openParen := fun same =>
        begins (Term.begins_cons same List.mem_cons_self _)
      refine ⟨_, _, Nat.le_add_right _ _, like_recount operand, ?_⟩
      rw [← ran]
      exact run_simple_atomic formed noGroup

end Steps

mutual

/-- A disjunction is read from the tokens that it is derived from, but for the numbers of its
wildcards. -/
theorem Disjunction.accepted {w depth : Nat} {tokens : List Token} {formula : Formula} :
    Disjunction w tokens formula → AcceptsChain disjunction? conjunctionCarriers (depth + 1)
      (chain conjunction? (negated depth)) tokens formula
  | .single whole =>
    (whole.accepted.ends (List.subset_cons_self _ _) conjunction?_stops).chained
  | .join first kind second => by
    have apart := first.consecutive.apart (second.consecutive.behind kind)
    exact first.accepted.step kind
      (second.accepted.ends (List.subset_cons_self _ _) conjunction?_stops) rfl (by decide)
      (fun _ _ _ => rfl) (fun _ _ => rfl) apart

theorem Conjunction.accepted {w depth : Nat} {tokens : List Token} {formula : Formula} :
    Conjunction w tokens formula → AcceptsChain conjunction? operandCarriers (depth + 1)
      (negated depth) tokens formula
  | .single operand => (accepts_negated operand.accepted).chained
  | .join first kind second => by
    have apart := first.consecutive.apart (second.consecutive.behind kind)
    exact first.accepted.step kind (accepts_negated second.accepted) rfl (by decide)
      (fun _ _ _ => rfl) (fun _ _ => rfl) apart

theorem Operand.accepted {w depth : Nat} {tokens : List Token} {formula : Formula} :
    Operand w tokens formula → ∀ fuel, tokens.length < fuel →
      Accepts operandCarriers (depth + 1) (parseNegation (parseWithin depth) fuel) tokens formula
  | .negation kind operand, fuel, enough => by
    obtain ⟨fuel, rfl⟩ := Nat.exists_eq_add_one_of_ne_zero (Nat.ne_zero_of_lt enough)
    exact accepts_negation kind (operand.accepted fuel (Nat.lt_of_succ_lt_succ enough))
  | .group opened inner closed, fuel, enough => by
    refine accepts_unnegated (Term.begins_cons opened (by decide) _) ?_ fuel enough
    exact accepts_group opened (accepts_within (fun less => inner.accepted) depth) closed
  | .relation first listed second, fuel, enough =>
    accepts_unnegated (first.begins.append _) (accepts_relation first listed second) fuel enough
  | .literal expression plain, fuel, enough =>
    accepts_unnegated expression.begins (accepts_literal expression plain) fuel enough

end

/-- Reading a formula gives one like that which the tokens make up. -/
theorem Disjunction.parsed {w : Nat} {tokens rest : List Token} {finish : Token}
    {formula : Formula} (disjunction : Disjunction w tokens formula)
    (followed : Followed disjunctionCarriers ((tokens ++ rest).length + 1) tokens rest finish)
    (c : Nat) :
    ∃ other count, c ≤ count ∧ Like c count formula other ∧
      parse ⟨tokens ++ rest, finish, c⟩ = (.ok other, ⟨rest, finish, count⟩) := by
  rw [parse, run_then (run_budget _)]
  exact accepts_within (fun less => disjunction.accepted) _ rest finish c followed

end Formula

end AgentSpeak
