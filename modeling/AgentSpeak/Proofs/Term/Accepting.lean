import AgentSpeak.Proofs.Term.Grammar

namespace AgentSpeak.Term

open Source (Parser Token Kind wildcards formed_of_kind)
open Source.Parser

/-- What carries on a term with a sign before it: a list of arguments. -/
def signedCarriers : List Kind :=
  [.openParen]

def powerCarriers : List Kind :=
  .power :: signedCarriers

def productCarriers : List Kind :=
  [.star, .slash, .divWord, .modWord] ++ powerCarriers

def expressionCarriers : List Kind :=
  [.plus, .minus] ++ productCarriers

def itemsCarriers : List Kind :=
  .comma :: expressionCarriers

/-- The operands of powers, whose parts nest at most `depth` levels deep. -/
def signedWithin (depth : Nat) : Parser Term := do
  parseUnary (parsePrimaryWith (parseWithin depth)) (← budget)

/-- The operands of products. -/
def powerWithin (depth : Nat) : Parser Term := do
  parsePower (signedWithin depth) (← budget)

/-- The operands of sums. -/
def productWithin (depth : Nat) : Parser Term :=
  chain multiplicative? (powerWithin depth)

section Steps

variable {expression : Parser Term} {w : Nat} {tokens before after : List Token}
  {token opening closing bar : Token} {term tail : Term} {terms : List Term}

theorem gives_group (opened : opening.kind = .openParen)
    (inner : Gives expressionCarriers expression w tokens term)
    (closed : closing.kind = .closeParen) :
    Gives signedCarriers (parsePrimaryWith expression) w (opening :: (tokens ++ [closing])) term := by
  have formed := formed_of_kind opened (by decide)
  apply gives_peek formed
  rw [opened]
  refine gives_advance formed (opened ▸ by decide) ?_
  refine inner.upTo (formed_of_kind closed (by decide)) (closed ▸ by decide) ?_
  exact gives_expect (formed_of_kind closed (by decide)) closed (by decide) (gives_pure _ _ term)

theorem gives_nil (opened : opening.kind = .openBracket) (closed : closing.kind = .closeBracket) :
    Gives signedCarriers (parsePrimaryWith expression) w [opening, closing] nil := by
  have formed := formed_of_kind opened (by decide)
  apply gives_peek formed
  rw [opened]
  refine gives_advance formed (opened ▸ by decide) ?_
  exact gives_accept (formed_of_kind closed (by decide)) closed (by decide) (gives_pure _ _ nil)

/-- What stands behind the items of a list. -/
def listRest (expression : Parser Term) (items : List Term) : Parser Term := do
  let tail ← if ← accept .bar then expression else pure Term.nil
  let _ ← expect .closeBracket .listEnd
  return ofList items tail

theorem gives_items (opened : opening.kind = .openBracket)
    (begins : Begins (.minus :: primaryFirsts) before)
    (formed : ∀ token ∈ before, token.problem? = none)
    (items : ∀ fuel, before.length < fuel →
      Gives itemsCarriers (commaSeparated expression fuel) w before terms)
    (next : token.problem? = none) (stops : token.kind ∉ itemsCarriers)
    (rest : Gives signedCarriers (listRest expression terms) (w + wildcards before) (token :: after)
      term) :
    Gives signedCarriers (parsePrimaryWith expression) w (opening :: (before ++ token :: after))
      term := by
  obtain ⟨first, others, rfl, listed⟩ := begins
  have other : first.kind ≠ .closeBracket := fun same => absurd (same ▸ listed) (by decide)
  apply gives_peek (formed_of_kind opened (by decide))
  rw [opened]
  refine gives_advance (formed_of_kind opened (by decide)) (opened ▸ by decide) ?_
  apply gives_unaccepted (formed first List.mem_cons_self) other
  refine gives_budget fun fuel enough => ?_
  have enough : ((first :: others) ++ token :: after).length < fuel := enough
  rw [List.length_append] at enough
  exact (items fuel (by omega)).upTo next stops rest

theorem gives_list (opened : opening.kind = .openBracket)
    (begins : Begins (.minus :: primaryFirsts) tokens)
    (formed : ∀ token ∈ tokens, token.problem? = none)
    (items : ∀ fuel, tokens.length < fuel →
      Gives itemsCarriers (commaSeparated expression fuel) w tokens terms)
    (closed : closing.kind = .closeBracket) :
    Gives signedCarriers (parsePrimaryWith expression) w (opening :: (tokens ++ [closing]))
      (ofList terms nil) := by
  have formed' := formed_of_kind closed (by decide)
  refine gives_items opened begins formed items formed' (closed ▸ by decide) ?_
  refine gives_unaccepted formed' (closed ▸ by decide) ?_
  exact gives_expect formed' closed (by decide) (gives_pure _ _ _)

theorem gives_listTail (opened : opening.kind = .openBracket)
    (begins : Begins (.minus :: primaryFirsts) before)
    (formed : ∀ token ∈ before, token.problem? = none)
    (items : ∀ fuel, before.length < fuel →
      Gives itemsCarriers (commaSeparated expression fuel) w before terms)
    (kind : bar.kind = .bar)
    (rest : Gives expressionCarriers expression (w + wildcards before) after tail)
    (closed : closing.kind = .closeBracket) :
    Gives signedCarriers (parsePrimaryWith expression) w
      (opening :: (before ++ bar :: after ++ [closing])) (ofList terms tail) := by
  rw [List.append_assoc, List.cons_append]
  have formed' := formed_of_kind kind (by decide)
  refine gives_items opened begins formed items formed' (kind ▸ by decide) ?_
  apply gives_accept formed' kind (by decide)
  refine rest.upTo (formed_of_kind closed (by decide)) (closed ▸ by decide) ?_
  exact gives_expect (formed_of_kind closed (by decide)) closed (by decide) (gives_pure _ _ _)

theorem gives_literal (listed : Begins [.trueWord, .falseWord, .functor] tokens)
    (literal : Gives signedCarriers (parseLiteralWith expression) w tokens term) :
    Gives signedCarriers (parsePrimaryWith expression) w tokens term := by
  obtain ⟨first, rest, rfl, listed⟩ := listed
  simp only [List.mem_cons, List.not_mem_nil, or_false] at listed
  rcases listed with kind | kind | kind <;>
    (refine gives_peek (formed_of_kind kind (by decide)) ?_; rw [kind]; exact literal)

/-- A name with what stands behind it. -/
theorem gives_name (kind : token.kind = .functor)
    (arguments : Gives signedCarriers (parseArguments expression (String.ofList token.text)) w tokens
      terms) :
    Gives signedCarriers (parseLiteralWith expression) w (token :: tokens)
      (literal (String.ofList token.text) terms) := by
  apply gives_peek (formed_of_kind kind (by decide))
  rw [kind]
  refine gives_advance (formed_of_kind kind (by decide)) (kind ▸ by decide) ?_
  exact arguments.last (fun _ listed => listed) (gives_pure _ _ _)

theorem gives_noArguments {functor : String} (opened : opening.kind = .openParen)
    (closed : closing.kind = .closeParen) :
    Gives signedCarriers (parseArguments expression functor) w [opening, closing] [] := by
  apply gives_accept (formed_of_kind opened (by decide)) opened (by decide)
  apply gives_check (formed_of_kind closed (by decide))
  rw [decide_eq_true closed]
  exact gives_expect (formed_of_kind closed (by decide)) closed (by decide) (gives_pure _ _ _)

theorem gives_arguments {functor : String} (opened : opening.kind = .openParen)
    (begins : Begins (.minus :: primaryFirsts) tokens)
    (formed : ∀ token ∈ tokens, token.problem? = none)
    (items : ∀ fuel, tokens.length < fuel →
      Gives itemsCarriers (commaSeparated expression fuel) w tokens terms)
    (closed : closing.kind = .closeParen) :
    Gives signedCarriers (parseArguments expression functor) w (opening :: (tokens ++ [closing]))
      terms := by
  obtain ⟨first, others, rfl, listed⟩ := begins
  have other : first.kind ≠ .closeParen := fun same => absurd (same ▸ listed) (by decide)
  apply gives_accept (formed_of_kind opened (by decide)) opened (by decide)
  apply gives_check (formed first List.mem_cons_self)
  rw [decide_eq_false other]
  refine gives_budget fun fuel enough => ?_
  have enough : ((first :: others) ++ [closing]).length < fuel := enough
  rw [List.length_append] at enough
  refine (items fuel (by omega)).upTo (formed_of_kind closed (by decide)) (closed ▸ by decide) ?_
  exact gives_expect (formed_of_kind closed (by decide)) closed (by decide) (gives_pure _ _ _)

theorem gives_unsigned {primary : Parser Term} (begins : Begins primaryFirsts tokens)
    (formed : ∀ token ∈ tokens, token.problem? = none)
    (gives : Gives signedCarriers primary w tokens term) (fuel : Nat) :
    Gives signedCarriers (parseUnary primary fuel) w tokens term := by
  cases fuel with
  | zero => exact gives
  | succ fuel =>
    obtain ⟨first, others, rfl, listed⟩ := begins
    have other : first.kind ≠ .minus := fun same => absurd (same ▸ listed) (by decide)
    exact gives_unaccepted (formed first List.mem_cons_self) other gives

theorem gives_negated {primary : Parser Term} {fuel : Nat} (kind : token.kind = .minus)
    (operand : Gives signedCarriers (parseUnary primary fuel) w tokens term) :
    Gives signedCarriers (parseUnary primary (fuel + 1)) w (token :: tokens) term.negate := by
  apply gives_accept (formed_of_kind kind (by decide)) kind (by decide)
  exact operand.last (List.Subset.refl _) (gives_pure _ _ _)

theorem gives_base {unary : Parser Term} (gives : Gives signedCarriers unary w tokens term)
    (fuel : Nat) : Gives powerCarriers (parsePower unary fuel) w tokens term := by
  have more : signedCarriers ⊆ powerCarriers := List.subset_cons_self _ _
  cases fuel with
  | zero => exact gives.mono more
  | succ fuel => exact gives.last more (gives_unaccepted_end (by decide) (gives_pure _ _ _))

theorem gives_raised {unary : Parser Term} {fuel : Nat} {exponent : Term}
    (base : Gives signedCarriers unary w before term) (kind : token.kind = .power)
    (raised : Gives powerCarriers (parsePower unary fuel) (w + wildcards before) after exponent) :
    Gives powerCarriers (parsePower unary (fuel + 1)) w (before ++ token :: after)
      (.compound "**" [term, exponent]) := by
  refine base.upTo (formed_of_kind kind (by decide)) (kind ▸ by decide) ?_
  apply gives_accept (formed_of_kind kind (by decide)) kind (by decide)
  exact raised.last (List.Subset.refl _) (gives_pure _ _ _)

theorem gives_item (item : Gives expressionCarriers expression w tokens term) (fuel : Nat) :
    Gives itemsCarriers (commaSeparated expression (fuel + 1)) w tokens [term] :=
  item.last (List.subset_cons_self _ _) (gives_unaccepted_end (by decide) (gives_pure _ _ _))

theorem gives_more {fuel : Nat} (item : Gives expressionCarriers expression w before term)
    (kind : token.kind = .comma)
    (rest : Gives itemsCarriers (commaSeparated expression fuel) (w + wildcards before) after terms) :
    Gives itemsCarriers (commaSeparated expression (fuel + 1)) w (before ++ token :: after)
      (term :: terms) := by
  refine item.upTo (formed_of_kind kind (by decide)) (kind ▸ by decide) ?_
  apply gives_accept (formed_of_kind kind (by decide)) kind (by decide)
  exact rest.last (List.Subset.refl _) (gives_pure _ _ _)

end Steps

theorem Items.literal_eq {w : Nat} {tokens : List Token} {terms : List Term}
    (items : Items w tokens terms) (functor : String) :
    literal functor terms = .compound functor terms := by
  cases items <;> rfl

/-- The operator of a sum's sign, which carries on no product. -/
theorem additive?_of_listed {kind : Kind} {functor : String} (listed : (kind, functor) ∈ sums) :
    additive? kind = some (fun left right => .compound functor [left, right]) ∧
      kind ∉ productCarriers ∧ kind ≠ .wildcard ∧ kind ∉ [Kind.blockComment, .string, .unknown] := by
  simp only [sums, List.mem_cons, Prod.mk.injEq, List.not_mem_nil, or_false] at listed
  rcases listed with ⟨rfl, rfl⟩ | ⟨rfl, rfl⟩ <;> exact ⟨rfl, by decide⟩

theorem multiplicative?_of_listed {kind : Kind} {functor : String}
    (listed : (kind, functor) ∈ products) :
    multiplicative? kind = some (fun left right => .compound functor [left, right]) ∧
      kind ∉ powerCarriers ∧ kind ≠ .wildcard ∧ kind ∉ [Kind.blockComment, .string, .unknown] := by
  simp only [products, List.mem_cons, Prod.mk.injEq, List.not_mem_nil, or_false] at listed
  rcases listed with ⟨rfl, rfl⟩ | ⟨rfl, rfl⟩ | ⟨rfl, rfl⟩ | ⟨rfl, rfl⟩ <;> exact ⟨rfl, by decide⟩

theorem additive?_stops (kind : Kind) (ends : kind ∉ expressionCarriers) : additive? kind = none := by
  cases kind <;> first | rfl | exact absurd (by decide) ends

theorem multiplicative?_stops (kind : Kind) (ends : kind ∉ productCarriers) :
    multiplicative? kind = none := by
  cases kind <;> first | rfl | exact absurd (by decide) ends

theorem isArithmetic_stops (kind : Kind) (ends : kind ∉ expressionCarriers) :
    isArithmetic kind = false := by
  cases kind <;> first | rfl | exact absurd (by decide) ends

/-- Well-formed tokens, not too many for expressions that nest `depth + 1` levels deep. -/
structure Fitting (depth : Nat) (tokens : List Token) : Prop where
  formed : ∀ token ∈ tokens, token.problem? = none
  few : tokens.length ≤ depth + 1

section Fitting

variable {depth : Nat} {tokens before after : List Token} {token opening closing : Token}

theorem Fitting.sublist (fitting : Fitting depth tokens) (fewer : before.Sublist tokens) :
    Fitting depth before :=
  ⟨fun token member => fitting.formed token (fewer.subset member),
    Nat.le_trans fewer.length_le fitting.few⟩

theorem Fitting.tail (fitting : Fitting depth (token :: tokens)) : Fitting depth tokens :=
  fitting.sublist (List.sublist_cons_self _ _)

theorem Fitting.left (fitting : Fitting depth (before ++ token :: after)) : Fitting depth before :=
  fitting.sublist (List.sublist_append_left _ _)

theorem Fitting.right (fitting : Fitting depth (before ++ token :: after)) : Fitting depth after :=
  fitting.sublist ((List.sublist_cons_self _ _).trans (List.sublist_append_right _ _))

/-- What stands between two tokens nests one level less deep. -/
theorem Fitting.inside (fitting : Fitting depth (opening :: (tokens ++ [closing]))) :
    ∃ less, depth = less + 1 ∧ Fitting less tokens := by
  have few := fitting.few
  simp only [List.length_cons, List.length_append, List.length_nil] at few
  obtain ⟨less, rfl⟩ := Nat.exists_eq_add_one_of_ne_zero (show depth ≠ 0 by omega)
  refine ⟨less, rfl, (fitting.tail.left).formed, by omega⟩

end Fitting

mutual

/-- A sum is read from the tokens that it is derived from. -/
theorem Expression.given {w depth : Nat} {tokens : List Token} {term : Term} :
    Expression w tokens term → Fitting depth tokens →
      Chained additive? productCarriers (productWithin depth) w tokens term
  | .single product, fitting =>
    ((product.given fitting).ends (List.subset_append_right _ _) multiplicative?_stops).chained
  | .sum first listed second, fitting => by
    obtain ⟨found, stops, solid, sure⟩ := additive?_of_listed listed
    refine (first.given fitting.left).step ?_ found (formed_of_kind rfl sure) stops solid
    exact (second.given fitting.right).ends (List.subset_append_right _ _) multiplicative?_stops

theorem Product.given {w depth : Nat} {tokens : List Token} {term : Term} :
    Product w tokens term → Fitting depth tokens →
      Chained multiplicative? powerCarriers (powerWithin depth) w tokens term
  | .single power, fitting =>
    (gives_budget fun fuel enough => power.given fitting fuel (Nat.le_of_lt enough)).chained
  | .product first listed second, fitting => by
    obtain ⟨found, stops, solid, sure⟩ := multiplicative?_of_listed listed
    refine (first.given fitting.left).step ?_ found (formed_of_kind rfl sure) stops solid
    exact gives_budget fun fuel enough => second.given fitting.right fuel (Nat.le_of_lt enough)

theorem Power.given {w depth : Nat} {tokens : List Token} {term : Term} :
    Power w tokens term → Fitting depth tokens → ∀ fuel, tokens.length ≤ fuel →
      Gives powerCarriers (parsePower (signedWithin depth) fuel) w tokens term
  | .single signed, fitting, fuel, _ =>
    gives_base (gives_budget fun more enough => signed.given fitting more (Nat.le_of_lt enough)) fuel
  | .power first kind second, fitting, fuel, enough => by
    rw [List.length_append, List.length_cons] at enough
    obtain ⟨fuel, rfl⟩ := Nat.exists_eq_add_one_of_ne_zero (show fuel ≠ 0 by omega)
    refine gives_raised ?_ kind (second.given fitting.right fuel (by omega))
    exact gives_budget fun more enough => first.given fitting.left more (Nat.le_of_lt enough)

theorem Signed.given {w depth : Nat} {tokens : List Token} {term : Term} :
    Signed w tokens term → Fitting depth tokens → ∀ fuel, tokens.length ≤ fuel →
      Gives signedCarriers (parseUnary (parsePrimaryWith (parseWithin depth)) fuel) w tokens term
  | .single primary, fitting, fuel, _ =>
    gives_unsigned primary.begins fitting.formed (primary.given fitting) fuel
  | .folded kind operand, fitting, fuel, enough => by
    obtain ⟨fuel, rfl⟩ := Nat.exists_eq_add_one_of_ne_zero (Nat.ne_zero_of_lt enough)
    exact gives_negated kind (operand.given fitting.tail fuel (Nat.le_of_succ_le_succ enough))
  | .minus kind operand unlike, fitting, fuel, enough => by
    obtain ⟨fuel, rfl⟩ := Nat.exists_eq_add_one_of_ne_zero (Nat.ne_zero_of_lt enough)
    rw [← negate_of_ne_number unlike]
    exact gives_negated kind (operand.given fitting.tail fuel (Nat.le_of_succ_le_succ enough))

theorem Primary.given {w depth : Nat} {tokens : List Token} {term : Term} :
    Primary w tokens term → Fitting depth tokens →
      Gives signedCarriers (parsePrimaryWith (parseWithin depth)) w tokens term
  | .number kind read, fitting => by
    have formed := fitting.formed _ List.mem_cons_self
    apply gives_peek formed
    rw [kind]
    refine gives_advance formed (kind ▸ by decide) ?_
    rw [numberOf_read read]
    exact gives_pure _ _ _
  | .string kind, fitting => by
    have formed := fitting.formed _ List.mem_cons_self
    apply gives_peek formed
    rw [kind]
    exact gives_advance formed (kind ▸ by decide) (gives_pure _ _ _)
  | .variableName kind, fitting => by
    have formed := fitting.formed _ List.mem_cons_self
    apply gives_peek formed
    rw [kind]
    exact gives_advance formed (kind ▸ by decide) (gives_pure _ _ _)
  | .wildcard kind, fitting => by
    have formed := fitting.formed _ List.mem_cons_self
    apply gives_peek formed
    rw [kind]
    exact gives_counted formed kind (gives_pure _ _ _)
  | .literal inner, fitting => gives_literal inner.begins (inner.given fitting)
  | .group opened inner closed, fitting => by
    obtain ⟨depth, rfl, inside⟩ := fitting.inside
    exact gives_group opened ((inner.given inside).ends (List.subset_append_right _ _)
      additive?_stops) closed
  | .nil opened closed, _ => gives_nil opened closed
  | .list opened items closed, fitting => by
    obtain ⟨depth, rfl, inside⟩ := fitting.inside
    exact gives_list opened items.begins inside.formed
      (fun fuel enough => items.given inside fuel (Nat.le_of_lt enough)) closed
  | .listTail opened items kind rest closed, fitting => by
    obtain ⟨depth, rfl, inside⟩ := fitting.inside
    exact gives_listTail opened items.begins inside.left.formed
      (fun fuel enough => items.given inside.left fuel (Nat.le_of_lt enough)) kind
      ((rest.given inside.right).ends (List.subset_append_right _ _) additive?_stops) closed

theorem Literal.given {w depth : Nat} {tokens : List Token} {term : Term} :
    Literal w tokens term → Fitting depth tokens →
      Gives signedCarriers (parseLiteralWith (parseWithin depth)) w tokens term
  | .truth kind, fitting => by
    apply gives_peek (formed_of_kind kind (by decide))
    rw [kind]
    exact gives_advance (formed_of_kind kind (by decide)) (kind ▸ by decide) (gives_pure _ _ _)
  | .falsity kind, fitting => by
    apply gives_peek (formed_of_kind kind (by decide))
    rw [kind]
    exact gives_advance (formed_of_kind kind (by decide)) (kind ▸ by decide) (gives_pure _ _ _)
  | .name kind, _ => gives_name kind (gives_unaccepted_end (by decide) (gives_pure _ _ _))
  | .empty kind opened closed, _ => gives_name kind (gives_noArguments opened closed)
  | .call kind opened arguments closed, fitting => by
    obtain ⟨depth, rfl, inside⟩ := fitting.tail.inside
    rw [← arguments.literal_eq]
    exact gives_name kind (gives_arguments opened arguments.begins inside.formed
      (fun fuel enough => arguments.given inside fuel (Nat.le_of_lt enough)) closed)

theorem Items.given {w depth : Nat} {tokens : List Token} {terms : List Term} :
    Items w tokens terms → Fitting depth tokens → ∀ fuel, tokens.length ≤ fuel →
      Gives itemsCarriers (commaSeparated (parseWithin (depth + 1)) fuel) w tokens terms
  | .single item, fitting, fuel, enough => by
    have some := item.begins.length_pos
    obtain ⟨fuel, rfl⟩ := Nat.exists_eq_add_one_of_ne_zero (show fuel ≠ 0 by omega)
    exact gives_item ((item.given fitting).ends (List.subset_append_right _ _) additive?_stops) fuel
  | .more item kind rest, fitting, fuel, enough => by
    rw [List.length_append, List.length_cons] at enough
    obtain ⟨fuel, rfl⟩ := Nat.exists_eq_add_one_of_ne_zero (show fuel ≠ 0 by omega)
    exact gives_more ((item.given fitting.left).ends (List.subset_append_right _ _) additive?_stops)
      kind (rest.given fitting.right fuel (by omega))

end

/-- Reading a term gives the one that the tokens make up. -/
theorem Expression.parsed {w : Nat} {tokens : List Token} {term : Term}
    (expression : Expression w tokens term) (formed : ∀ token ∈ tokens, token.problem? = none) :
    Gives expressionCarriers parse w tokens term := by
  intro rest finish next ends
  have fitting : Fitting (tokens ++ rest).length tokens := by
    refine ⟨formed, ?_⟩
    rw [List.length_append]
    omega
  have gives := (expression.given fitting).ends (List.subset_append_right _ _) additive?_stops
  rw [parse, run_then (run_budget _)]
  exact gives rest finish next ends

end AgentSpeak.Term
