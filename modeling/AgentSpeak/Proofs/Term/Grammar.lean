import AgentSpeak.Proofs.Number.Spelling
import AgentSpeak.Proofs.Source.Giving
import AgentSpeak.Proofs.Term.Legible

namespace AgentSpeak

open Source (Token Kind wildcards wildcards_cons_of_ne wildcards_cons_of_eq wildcards_append)

namespace Term

/-- The signs of sums and the functors that they stand for. -/
def sums : List (Kind × String) :=
  [(.plus, "+"), (.minus, "-")]

/-- The signs of products and the functors that they stand for. -/
def products : List (Kind × String) :=
  [(.star, "*"), (.slash, "/"), (.divWord, "div"), (.modWord, "mod")]

mutual

/-- Sums: products joined from the left. -/
inductive Expression : Nat → List Token → Term → Prop where
  | single {w : Nat} {tokens : List Token} {term : Term} (product : Product w tokens term) :
      Expression w tokens term
  | sum {w : Nat} {before after : List Token} {sign : Token} {functor : String} {left right : Term}
      (first : Expression w before left) (listed : (sign.kind, functor) ∈ sums)
      (second : Product (w + wildcards before) after right) :
      Expression w (before ++ sign :: after) (.compound functor [left, right])

/-- Products: powers joined from the left. -/
inductive Product : Nat → List Token → Term → Prop where
  | single {w : Nat} {tokens : List Token} {term : Term} (power : Power w tokens term) :
      Product w tokens term
  | product {w : Nat} {before after : List Token} {sign : Token} {functor : String}
      {left right : Term} (first : Product w before left)
      (listed : (sign.kind, functor) ∈ products)
      (second : Power (w + wildcards before) after right) :
      Product w (before ++ sign :: after) (.compound functor [left, right])

/-- Powers: signed terms joined from the right. -/
inductive Power : Nat → List Token → Term → Prop where
  | single {w : Nat} {tokens : List Token} {term : Term} (signed : Signed w tokens term) :
      Power w tokens term
  | power {w : Nat} {before after : List Token} {sign : Token} {base exponent : Term}
      (first : Signed w before base) (kind : sign.kind = .power)
      (second : Power (w + wildcards before) after exponent) :
      Power w (before ++ sign :: after) (.compound "**" [base, exponent])

/-- Terms behind minus signs, which numbers take into themselves. -/
inductive Signed : Nat → List Token → Term → Prop where
  | single {w : Nat} {tokens : List Token} {term : Term} (primary : Primary w tokens term) :
      Signed w tokens term
  | folded {w : Nat} {tokens : List Token} {sign : Token} {value : Number}
      (kind : sign.kind = .minus) (operand : Signed w tokens (.number value)) :
      Signed w (sign :: tokens) (.number value.neg)
  | minus {w : Nat} {tokens : List Token} {sign : Token} {term : Term} (kind : sign.kind = .minus)
      (operand : Signed w tokens term) (unlike : ∀ value, term ≠ .number value) :
      Signed w (sign :: tokens) (.compound "-" [term])

/-- Constants, variables, literals, terms in parentheses and lists. -/
inductive Primary : Nat → List Token → Term → Prop where
  | number {w : Nat} {token : Token} {value : Number} (kind : token.kind = .number)
      (read : Number.read? token.text = some value) : Primary w [token] (.number value)
  | string {w : Nat} {token : Token} (kind : token.kind = .string) :
      Primary w [token] (.string (String.ofList (unescape (token.text.drop 1).dropLast)))
  | variableName {w : Nat} {token : Token} (kind : token.kind = .variableName) :
      Primary w [token] (.var ⟨String.ofList token.text, []⟩)
  | wildcard {w : Nat} {token : Token} (kind : token.kind = .wildcard) :
      Primary w [token] (.var (.wildcard (w + 1)))
  | literal {w : Nat} {tokens : List Token} {term : Term} (literal : Literal w tokens term) :
      Primary w tokens term
  | group {w : Nat} {tokens : List Token} {opening closing : Token} {term : Term}
      (opened : opening.kind = .openParen) (inner : Expression w tokens term)
      (closed : closing.kind = .closeParen) : Primary w (opening :: (tokens ++ [closing])) term
  | nil {w : Nat} {opening closing : Token} (opened : opening.kind = .openBracket)
      (closed : closing.kind = .closeBracket) : Primary w [opening, closing] nil
  | list {w : Nat} {tokens : List Token} {opening closing : Token} {terms : List Term}
      (opened : opening.kind = .openBracket) (items : Items w tokens terms)
      (closed : closing.kind = .closeBracket) :
      Primary w (opening :: (tokens ++ [closing])) (ofList terms nil)
  | listTail {w : Nat} {before after : List Token} {opening bar closing : Token}
      {terms : List Term} {tail : Term} (opened : opening.kind = .openBracket)
      (items : Items w before terms) (kind : bar.kind = .bar)
      (rest : Expression (w + wildcards before) after tail)
      (closed : closing.kind = .closeBracket) :
      Primary w (opening :: (before ++ bar :: after ++ [closing])) (ofList terms tail)

/-- Literals: a name alone or with arguments, and the words for truth and falsity. -/
inductive Literal : Nat → List Token → Term → Prop where
  | truth {w : Nat} {token : Token} (kind : token.kind = .trueWord) : Literal w [token] truth
  | falsity {w : Nat} {token : Token} (kind : token.kind = .falseWord) :
      Literal w [token] falsity
  | name {w : Nat} {token : Token} (kind : token.kind = .functor) :
      Literal w [token] (.atom (String.ofList token.text))
  | empty {w : Nat} {token opening closing : Token} (kind : token.kind = .functor)
      (opened : opening.kind = .openParen) (closed : closing.kind = .closeParen) :
      Literal w [token, opening, closing] (.atom (String.ofList token.text))
  | call {w : Nat} {tokens : List Token} {token opening closing : Token} {terms : List Term}
      (kind : token.kind = .functor) (opened : opening.kind = .openParen)
      (arguments : Items w tokens terms) (closed : closing.kind = .closeParen) :
      Literal w (token :: opening :: (tokens ++ [closing]))
        (.compound (String.ofList token.text) terms)

/-- Terms with commas between them, at least one. -/
inductive Items : Nat → List Token → List Term → Prop where
  | single {w : Nat} {tokens : List Token} {term : Term} (item : Expression w tokens term) :
      Items w tokens [term]
  | more {w : Nat} {before after : List Token} {comma : Token} {term : Term} {terms : List Term}
      (item : Expression w before term) (kind : comma.kind = .comma)
      (rest : Items (w + wildcards before) after terms) :
      Items w (before ++ comma :: after) (term :: terms)

end

variable {w : Nat} {tokens : List Token} {term : Term} {terms : List Term}

/-- Tokens begin with one of some kinds. -/
def Begins (kinds : List Kind) (tokens : List Token) : Prop :=
  ∃ token rest, tokens = token :: rest ∧ token.kind ∈ kinds

theorem Begins.append {kinds : List Kind} {before : List Token} (begins : Begins kinds before)
    (after : List Token) : Begins kinds (before ++ after) := by
  obtain ⟨token, rest, rfl, listed⟩ := begins
  exact ⟨token, rest ++ after, rfl, listed⟩

theorem Begins.mono {kinds others : List Kind} (begins : Begins kinds tokens)
    (more : kinds ⊆ others) : Begins others tokens := by
  obtain ⟨token, rest, same, listed⟩ := begins
  exact ⟨token, rest, same, more listed⟩

theorem Begins.length_pos {kinds : List Kind} (begins : Begins kinds tokens) : 0 < tokens.length := by
  obtain ⟨token, rest, rfl, -⟩ := begins
  exact Nat.succ_pos _

theorem begins_cons {kinds : List Kind} {token : Token} {kind : Kind} (same : token.kind = kind)
    (listed : kind ∈ kinds) (rest : List Token) : Begins kinds (token :: rest) :=
  ⟨token, rest, rfl, same ▸ listed⟩

/-- The kinds of tokens that an operand without a sign begins with. -/
def primaryFirsts : List Kind :=
  [.number, .string, .variableName, .wildcard, .trueWord, .falseWord, .functor, .openParen,
    .openBracket]

theorem Literal.begins : Literal w tokens term → Begins [.trueWord, .falseWord, .functor] tokens
  | .truth kind | .falsity kind | .name kind | .empty kind .. | .call kind .. =>
    begins_cons kind (by decide) _

theorem Primary.begins : Primary w tokens term → Begins primaryFirsts tokens
  | .number kind _ | .string kind | .variableName kind | .wildcard kind | .group kind .. |
    .nil kind .. | .list kind .. | .listTail kind .. => begins_cons kind (by decide) _
  | .literal inner => inner.begins.mono (by decide)

theorem Signed.begins : Signed w tokens term → Begins (.minus :: primaryFirsts) tokens
  | .single primary => primary.begins.mono (by decide)
  | .folded kind _ | .minus kind .. => begins_cons kind (by decide) _

theorem Power.begins : Power w tokens term → Begins (.minus :: primaryFirsts) tokens
  | .single signed => signed.begins
  | .power first _ _ => first.begins.append _

theorem Product.begins {w : Nat} {tokens : List Token} {term : Term} :
    Product w tokens term → Begins (.minus :: primaryFirsts) tokens
  | .single power => power.begins
  | .product first _ _ => first.begins.append _

theorem Expression.begins {w : Nat} {tokens : List Token} {term : Term} :
    Expression w tokens term → Begins (.minus :: primaryFirsts) tokens
  | .single product => product.begins
  | .sum first _ _ => first.begins.append _

theorem Items.begins : Items w tokens terms → Begins (.minus :: primaryFirsts) tokens
  | .single item => item.begins
  | .more item _ _ => item.begins.append _

/-- The wildcards of some variables are those of tokens behind `w` other wildcards: they are numbered
one after another from there. -/
def Consecutive (w : Nat) (tokens : List Token) (vs : List Variable) : Prop :=
  numbers vs = List.range' (w + 1) (wildcards tokens)

section Consecutive

variable {w : Nat} {tokens before after : List Token} {token : Token} {vs ws : List Variable}

theorem consecutive_word {kind : Kind} (same : token.kind = kind)
    (solid : kind ≠ .wildcard := by decide) : Consecutive w [token] [] := by
  rw [Consecutive, wildcards_cons_of_ne (same ▸ solid)]
  rfl

theorem consecutive_named {v : Variable} (kind : token.kind = .variableName)
    (named : v.number? = none) : Consecutive w [token] [v] := by
  rw [Consecutive, wildcards_cons_of_ne (kind ▸ by decide)]
  simp [numbers, named]

theorem consecutive_wildcard (kind : token.kind = .wildcard) :
    Consecutive w [token] [.wildcard (w + 1)] := by
  rw [Consecutive, wildcards_cons_of_eq kind]
  simp [numbers]

theorem Consecutive.behind (consecutive : Consecutive w tokens vs) {kind : Kind}
    (same : token.kind = kind) (solid : kind ≠ .wildcard := by decide) :
    Consecutive w (token :: tokens) vs := by
  rw [Consecutive, wildcards_cons_of_ne (same ▸ solid)]
  exact consecutive

theorem Consecutive.append (first : Consecutive w before vs)
    (second : Consecutive (w + wildcards before) after ws) :
    Consecutive w (before ++ after) (vs ++ ws) := by
  rw [Consecutive] at first second ⊢
  rw [numbers_append, first, second, Nat.add_right_comm, List.range'_append_1, wildcards_append]

theorem Consecutive.ended (consecutive : Consecutive w tokens vs) {kind : Kind}
    (same : token.kind = kind) (solid : kind ≠ .wildcard := by decide) :
    Consecutive w (tokens ++ [token]) vs := by
  have whole := consecutive.append (consecutive_word same solid)
  rwa [List.append_nil] at whole

/-- Consecutive numbers rise up to the count behind the tokens. -/
theorem Consecutive.numbered (consecutive : Consecutive w tokens vs) :
    Numbered w (w + wildcards tokens) vs := by
  rw [Consecutive] at consecutive
  constructor
  · rw [consecutive]
    exact List.pairwise_lt_range'
  · intro n member
    rw [consecutive, List.mem_range'_1] at member
    omega

/-- The wildcards of tokens behind others have other numbers. -/
theorem Consecutive.apart (first : Consecutive w before vs)
    (second : Consecutive (w + wildcards before) after ws) : ∀ n ∈ numbers vs, n ∉ numbers ws := by
  intro n inFirst inSecond
  have upper := (first.numbered.range n inFirst).2
  have lower := (second.numbered.range n inSecond).1
  omega

/-- The variables of tokens behind `w` wildcards, read behind `w'` wildcards instead. -/
def recount (w w' : Nat) : Variable → Variable :=
  .renumber fun n => n - w + w'

/-- Counting on from a later place is the same, as nothing has a number from before it. -/
theorem Consecutive.recount_ahead {k : Nat} (consecutive : Consecutive (w + k) tokens vs) (w' : Nat) :
    ∀ v ∈ vs, recount (w + k) (w' + k) v = recount w w' v := by
  intro v member
  refine Variable.renumber_congr fun n found => ?_
  have listed : n ∈ numbers vs := mem_numbers.mpr (Variable.eq_wildcard_of_number? found ▸ member)
  rw [consecutive, List.mem_range'_1] at listed
  omega

theorem Consecutive.rename_ahead {k : Nat} {term : Term}
    (consecutive : Consecutive (w + k) tokens term.vars) (w' : Nat) :
    term.rename (recount (w + k) (w' + k)) = term.rename (recount w w') :=
  rename_congr (consecutive.recount_ahead w')

theorem Consecutive.map_rename_ahead {k : Nat} {terms : List Term}
    (consecutive : Consecutive (w + k) tokens (terms.flatMap vars)) (w' : Nat) :
    terms.map (rename (recount (w + k) (w' + k))) = terms.map (rename (recount w w')) := by
  refine List.map_congr_left fun term member => rename_congr fun v occurs => ?_
  exact consecutive.recount_ahead w' v (List.mem_flatMap.mpr ⟨term, member, occurs⟩)

end Consecutive

theorem vars_binary (functor : String) (left right : Term) :
    (compound functor [left, right]).vars = left.vars ++ right.vars := by
  simp

theorem sums_solid : ∀ entry ∈ sums, entry.1 ≠ .wildcard := by decide

theorem products_solid : ∀ entry ∈ products, entry.1 ≠ .wildcard := by decide

mutual

theorem Expression.consecutive {w : Nat} {tokens : List Token} {term : Term} :
    Expression w tokens term → Consecutive w tokens term.vars
  | .single product => product.consecutive
  | .sum first listed second => by
    rw [vars_binary]
    exact first.consecutive.append (second.consecutive.behind rfl (sums_solid _ listed))

theorem Product.consecutive {w : Nat} {tokens : List Token} {term : Term} :
    Product w tokens term → Consecutive w tokens term.vars
  | .single power => power.consecutive
  | .product first listed second => by
    rw [vars_binary]
    exact first.consecutive.append (second.consecutive.behind rfl (products_solid _ listed))

theorem Power.consecutive {w : Nat} {tokens : List Token} {term : Term} :
    Power w tokens term → Consecutive w tokens term.vars
  | .single signed => signed.consecutive
  | .power first kind second => by
    rw [vars_binary]
    exact first.consecutive.append (second.consecutive.behind kind)

theorem Signed.consecutive {w : Nat} {tokens : List Token} {term : Term} :
    Signed w tokens term → Consecutive w tokens term.vars
  | .single primary => primary.consecutive
  | .folded kind operand => operand.consecutive.behind kind
  | .minus kind operand _ => by
    rw [vars_compound, List.flatMap_singleton]
    exact operand.consecutive.behind kind

theorem Primary.consecutive {w : Nat} {tokens : List Token} {term : Term} :
    Primary w tokens term → Consecutive w tokens term.vars
  | .number kind _ | .string kind => consecutive_word kind
  | .variableName kind => by
    rw [vars_var]
    exact consecutive_named kind rfl
  | .wildcard kind => by
    rw [vars_var]
    exact consecutive_wildcard kind
  | .literal inner => inner.consecutive
  | .group opened inner closed =>
    (inner.consecutive.ended closed).behind opened
  | .nil opened closed =>
    (consecutive_word closed).behind opened
  | .list opened items closed => by
    rw [vars_ofList]
    exact (items.consecutive.append (consecutive_word closed)).behind opened
  | .listTail opened items kind rest closed => by
    rw [vars_ofList]
    exact ((items.consecutive.append (rest.consecutive.behind kind)).ended closed).behind opened

theorem Literal.consecutive {w : Nat} {tokens : List Token} {term : Term} :
    Literal w tokens term → Consecutive w tokens term.vars
  | .truth kind | .falsity kind | .name kind => consecutive_word kind
  | .empty kind opened closed =>
    ((consecutive_word closed).behind opened).behind kind
  | .call kind opened arguments closed => by
    rw [vars_compound]
    exact ((arguments.consecutive.ended closed).behind opened).behind kind

theorem Items.consecutive {w : Nat} {tokens : List Token} {terms : List Term} :
    Items w tokens terms → Consecutive w tokens (terms.flatMap vars)
  | .single item => by
    rw [List.flatMap_singleton]
    exact item.consecutive
  | .more item kind rest => by
    rw [List.flatMap_cons]
    exact item.consecutive.append (rest.consecutive.behind kind)

end

theorem isWritable_ofList {items : List Term} {tail : Term} :
    (ofList items tail).isWritable = (items.all isWritable && tail.isWritable) := by
  induction items with
  | nil => rfl
  | cons item items ih =>
    show (cons item (ofList items tail)).isWritable = _
    simp [cons, ih, Bool.and_assoc]

mutual

/-- A term that is made up of tokens has a text, since each of its numbers is that of a token. -/
theorem Expression.isWritable {w : Nat} {tokens : List Token} {term : Term} :
    Expression w tokens term → term.isWritable = true
  | .single product => product.isWritable
  | .sum first _ second => by simp [first.isWritable, second.isWritable]

theorem Product.isWritable {w : Nat} {tokens : List Token} {term : Term} :
    Product w tokens term → term.isWritable = true
  | .single power => power.isWritable
  | .product first _ second => by simp [first.isWritable, second.isWritable]

theorem Power.isWritable {w : Nat} {tokens : List Token} {term : Term} :
    Power w tokens term → term.isWritable = true
  | .single signed => signed.isWritable
  | .power first _ second => by simp [first.isWritable, second.isWritable]

theorem Signed.isWritable {w : Nat} {tokens : List Token} {term : Term} :
    Signed w tokens term → term.isWritable = true
  | .single primary => primary.isWritable
  | .folded _ operand => (Number.isWritable_neg _).trans operand.isWritable
  | .minus _ operand _ => by simp [operand.isWritable]

theorem Primary.isWritable {w : Nat} {tokens : List Token} {term : Term} :
    Primary w tokens term → term.isWritable = true
  | .number _ read => Number.isWritable_of_read? read
  | .string _ | .variableName _ | .wildcard _ | .nil _ _ => rfl
  | .literal inner => inner.isWritable
  | .group _ inner _ => inner.isWritable
  | .list _ items _ => by
    rw [isWritable_ofList, List.all_eq_true.mpr items.isWritable]
    rfl
  | .listTail _ items _ rest _ => by
    rw [isWritable_ofList, List.all_eq_true.mpr items.isWritable, rest.isWritable]
    rfl

theorem Literal.isWritable {w : Nat} {tokens : List Token} {term : Term} :
    Literal w tokens term → term.isWritable = true
  | .truth _ | .falsity _ | .name _ | .empty _ _ _ => rfl
  | .call _ _ arguments _ => by
    rw [isWritable_compound, List.all_eq_true.mpr arguments.isWritable]

theorem Items.isWritable {w : Nat} {tokens : List Token} {terms : List Term} :
    Items w tokens terms → ∀ term ∈ terms, term.isWritable = true
  | .single item => List.forall_mem_singleton.mpr item.isWritable
  | .more item _ rest => List.forall_mem_cons.mpr ⟨item.isWritable, rest.isWritable⟩

end

theorem rename_ne_number {π : Variable → Variable} {term : Term}
    (unlike : ∀ value, term ≠ .number value) (value : Number) : term.rename π ≠ .number value := by
  cases term with
  | number other => exact absurd rfl (unlike other)
  | _ => simp

theorem negate_of_ne_number {term : Term} (unlike : ∀ value, term ≠ .number value) :
    term.negate = .compound "-" [term] := by
  cases term with
  | number value => exact absurd rfl (unlike value)
  | _ => rfl

mutual

/-- The same tokens make up the same term behind another number of wildcards, but for the numbers of
its own. -/
theorem Expression.recount {w : Nat} {tokens : List Token} {term : Term} (w' : Nat) :
    Expression w tokens term → Expression w' tokens (term.rename (recount w w'))
  | .single product => .single (product.recount w')
  | .sum first listed second => by
    rw [rename_compound]
    refine .sum (first.recount w') listed ?_
    exact second.consecutive.rename_ahead w' ▸ second.recount _

theorem Product.recount {w : Nat} {tokens : List Token} {term : Term} (w' : Nat) :
    Product w tokens term → Product w' tokens (term.rename (recount w w'))
  | .single power => .single (power.recount w')
  | .product first listed second => by
    rw [rename_compound]
    refine .product (first.recount w') listed ?_
    exact second.consecutive.rename_ahead w' ▸ second.recount _

theorem Power.recount {w : Nat} {tokens : List Token} {term : Term} (w' : Nat) :
    Power w tokens term → Power w' tokens (term.rename (recount w w'))
  | .single signed => .single (signed.recount w')
  | .power first kind second => by
    rw [rename_compound]
    refine .power (first.recount w') kind ?_
    exact second.consecutive.rename_ahead w' ▸ second.recount _

theorem Signed.recount {w : Nat} {tokens : List Token} {term : Term} (w' : Nat) :
    Signed w tokens term → Signed w' tokens (term.rename (recount w w'))
  | .single primary => .single (primary.recount w')
  | .folded kind operand => by
    have number := operand.recount w'
    rw [rename_number] at number ⊢
    exact .folded kind number
  | .minus kind operand unlike => by
    rw [rename_compound]
    exact .minus kind (operand.recount w') (rename_ne_number unlike)

theorem Primary.recount {w : Nat} {tokens : List Token} {term : Term} (w' : Nat) :
    Primary w tokens term → Primary w' tokens (term.rename (recount w w'))
  | .number kind read => by
    rw [rename_number]
    exact .number kind read
  | .string kind => by
    rw [rename_string]
    exact .string kind
  | .variableName kind => by
    rw [rename_var]
    exact .variableName kind
  | .wildcard kind => by
    have next : w + 1 - w + w' = w' + 1 := by omega
    rw [rename_var, Term.recount, Variable.renumber_wildcard, next]
    exact .wildcard kind
  | .literal inner => .literal (inner.recount w')
  | .group opened inner closed => .group opened (inner.recount w') closed
  | .nil opened closed => by
    rw [Term.nil, rename_atom]
    exact .nil opened closed
  | .list opened items closed => by
    rw [rename_ofList, Term.nil, rename_atom]
    exact .list opened (items.recount w') closed
  | .listTail opened items kind rest closed => by
    rw [rename_ofList]
    refine .listTail opened (items.recount w') kind ?_ closed
    exact rest.consecutive.rename_ahead w' ▸ rest.recount _

theorem Literal.recount {w : Nat} {tokens : List Token} {term : Term} (w' : Nat) :
    Literal w tokens term → Literal w' tokens (term.rename (recount w w'))
  | .truth kind => by
    rw [truth, rename_atom]
    exact .truth kind
  | .falsity kind => by
    rw [falsity, rename_atom]
    exact .falsity kind
  | .name kind => by
    rw [rename_atom]
    exact .name kind
  | .empty kind opened closed => by
    rw [rename_atom]
    exact .empty kind opened closed
  | .call kind opened arguments closed => by
    rw [rename_compound]
    exact .call kind opened (arguments.recount w') closed

theorem Items.recount {w : Nat} {tokens : List Token} {terms : List Term} (w' : Nat) :
    Items w tokens terms → Items w' tokens (terms.map (rename (recount w w')))
  | .single item => .single (item.recount w')
  | .more item kind rest => by
    refine .more (item.recount w') kind ?_
    exact rest.consecutive.map_rename_ahead w' ▸ rest.recount _

end

theorem not_begins_cons {kinds : List Kind} {token : Token} {kind : Kind} (same : token.kind = kind)
    (unlisted : kind ∉ kinds := by decide) : ¬ Begins kinds (token :: tokens) := by
  rintro ⟨_, _, whole, listed⟩
  cases whole
  exact unlisted (same ▸ listed)

/-- Tokens are a pair of parentheses around a term. -/
def Enclosed (w : Nat) (tokens : List Token) (term : Term) : Prop :=
  ∃ opening inner closing, tokens = opening :: (inner ++ [closing]) ∧ opening.kind = .openParen ∧
    closing.kind = .closeParen ∧ Expression w inner term

theorem isPlainLiteral_binary {functor : String} {operator : Operator} (left right : Term)
    (found : Operator.ofFunctor? functor = some operator) :
    (compound functor [left, right]).isPlainLiteral = false := by
  simp [isPlainLiteral, isExpression, found]

theorem sums_operator : ∀ entry ∈ sums, ∃ operator, Operator.ofFunctor? entry.2 = some operator := by
  simp [sums, Operator.ofFunctor?]

theorem products_operator :
    ∀ entry ∈ products, ∃ operator, Operator.ofFunctor? entry.2 = some operator := by
  simp [products, Operator.ofFunctor?]

section Unsigned

variable (begins : Begins primaryFirsts tokens) (plain : term.isPlainLiteral = true)

include begins

theorem Signed.primary (signed : Signed w tokens term) : Primary w tokens term := by
  cases signed with
  | single primary => exact primary
  | folded kind | minus kind => exact absurd begins (not_begins_cons kind)

include plain

theorem Power.primary (power : Power w tokens term) : Primary w tokens term := by
  cases power with
  | single signed => exact signed.primary begins
  | power => cases plain.symm.trans (isPlainLiteral_binary _ _ rfl)

theorem Product.primary (product : Product w tokens term) : Primary w tokens term := by
  cases product with
  | single power => exact power.primary begins plain
  | product first listed second =>
    obtain ⟨operator, found⟩ := products_operator _ listed
    cases plain.symm.trans (isPlainLiteral_binary _ _ found)

/-- A plain literal without a sign before it is made by no operator. -/
theorem Expression.primary (expression : Expression w tokens term) : Primary w tokens term := by
  cases expression with
  | single product => exact product.primary begins plain
  | sum first listed second =>
    obtain ⟨operator, found⟩ := sums_operator _ listed
    cases plain.symm.trans (isPlainLiteral_binary _ _ found)

end Unsigned

theorem Primary.enclosed (begins : Begins [.openParen] tokens) (primary : Primary w tokens term) :
    Enclosed w tokens term := by
  cases primary with
  | group opened inner closed => exact ⟨_, _, _, rfl, opened, closed, inner⟩
  | literal inner =>
    obtain ⟨first, rest, rfl, opened⟩ := begins
    exact absurd inner.begins (not_begins_cons (List.mem_singleton.mp opened))
  | number kind | string kind | variableName kind | wildcard kind | nil kind | list kind
  | listTail kind => exact absurd begins (not_begins_cons kind)

/-- A plain literal behind a parenthesis is in parentheses as a whole. -/
theorem Expression.enclosed (expression : Expression w tokens term)
    (begins : Begins [.openParen] tokens) (plain : term.isPlainLiteral = true) :
    Enclosed w tokens term :=
  (expression.primary (begins.mono (by decide)) plain).enclosed begins

theorem Primary.toLiteral (begins : Begins [.trueWord, .falseWord, .functor] tokens)
    (primary : Primary w tokens term) : Literal w tokens term := by
  cases primary with
  | literal inner => exact inner
  | number kind | string kind | variableName kind | wildcard kind | group kind | nil kind | list kind
  | listTail kind => exact absurd begins (not_begins_cons kind)

/-- A plain literal that begins with a name is a literal of the grammar. -/
theorem Expression.toLiteral (expression : Expression w tokens term)
    (begins : Begins [.trueWord, .falseWord, .functor] tokens)
    (plain : term.isPlainLiteral = true) : Literal w tokens term :=
  (expression.primary (begins.mono (by decide)) plain).toLiteral begins

end Term

end AgentSpeak
