import AgentSpeak.Proofs.Term.Deriving
import AgentSpeak.Proofs.Term.Equality
import AgentSpeak.Proofs.Term.Printed
import AgentSpeak.Proofs.Term.Survival

namespace AgentSpeak.Term

open Source (Token Kind Lexeme Sign Phrase Spans scan wildcards wildcards_cons_of_ne
  wildcards_cons_of_eq wildcards_joined wildcards_enclosed)

theorem floats_ofList (items : List Term) (tail : Term) :
    (ofList items tail).floats = items.flatMap floats ++ tail.floats := by
  induction items with
  | nil => rfl
  | cons item items ih =>
    show (cons item (ofList items tail)).floats = _
    simp [cons, ih]

/-- Terms that are shown after one another as they are grouped. -/
abbrev PrintedAll (low high : Nat) (terms : List Term) : Prop :=
  ShowsAll low high terms (terms.map regroup)

variable {low middle high : Nat} {term tail value : Term} {terms : List Term} {functor : String}

/-- A list is shown by its items and what ends it. -/
theorem PrintedAll.ofList (items : PrintedAll low middle terms) (last : Printed middle high tail) :
    Printed low high (ofList terms tail) := by
  induction terms generalizing low with
  | nil => cases items
  | cons term terms ih =>
    cases items with
    | single shows => exact printed_pair shows last
    | more first rest => exact printed_pair first (ih rest)

/-- A call is shown by its name and the texts of its arguments. -/
theorem PrintedAll.call (word : IsWord functor)
    (kind : Lexeme.nameKind functor.toList = .functor) (arguments : PrintedAll low high terms) :
    Printed low high (.compound functor terms) :=
  have single := isPower_call word terms
  (ShowsAll.call word kind arguments).printed single (regroup_compound single)

theorem sums_binary : ∀ entry ∈ sums, ∃ operator : Operator, operator ≠ .power ∧
    operator.functor = entry.2 := by
  simp only [sums, List.forall_mem_cons]
  exact ⟨⟨.add, by decide, rfl⟩, ⟨.sub, by decide, rfl⟩, by simp⟩

theorem products_binary : ∀ entry ∈ products, ∃ operator : Operator, operator ≠ .power ∧
    operator.functor = entry.2 := by
  simp only [products, List.forall_mem_cons]
  exact ⟨⟨.mul, by decide, rfl⟩, ⟨.quotient, by decide, rfl⟩, ⟨.floorQuotient, by decide, rfl⟩,
    ⟨.modulo, by decide, rfl⟩, by simp⟩

/-- Names among tokens have the text of their kind, and the floating-point numbers of a term are read
back from their texts. -/
structure Faithful (tokens : List Token) (floats : List Binary64) : Prop where
  named : ∀ token ∈ tokens, Named token
  exact : ∀ x ∈ floats, x.ReadsBack

theorem Faithful.mono {tokens tokens' : List Token} {xs ys : List Binary64}
    (faithful : Faithful tokens xs) (fewer : tokens' ⊆ tokens) (less : ys ⊆ xs) :
    Faithful tokens' ys :=
  ⟨fun token member => faithful.named token (fewer member),
    fun x member => faithful.exact x (less member)⟩

theorem Named.word {token : Token} {kind : Kind} (named : Named token) (same : token.kind = kind)
    (listed : kind ∈ Lexeme.nameKinds := by decide) :
    IsWord (String.ofList token.text) ∧
      Lexeme.nameKind (String.ofList token.text).toList = kind := by
  subst same
  simpa [IsWord] using named listed

theorem Consecutive.wildcards_eq_zero {w : Nat} {tokens : List Token} {vs : List Variable}
    (consecutive : Consecutive w tokens vs) (closed : numbers vs = []) : wildcards tokens = 0 := by
  rw [Consecutive, closed] at consecutive
  simpa using consecutive.symm

mutual

/-- A term that is derived from tokens is shown by its text. -/
theorem Expression.printed {w : Nat} {tokens : List Token} {term : Term} :
    Expression w tokens term → Faithful tokens term.floats →
      Printed w (w + wildcards tokens) term
  | .single product, faithful => product.printed faithful
  | .sum first listed second, faithful => by
    obtain ⟨operator, noPower, rfl⟩ := sums_binary _ listed
    rw [wildcards_joined (sums_solid _ listed), ← Nat.add_assoc]
    exact printed_binary (first.printed (faithful.mono (by simp) (by simp)))
      (second.printed (faithful.mono (by simp) (by simp))) noPower

theorem Product.printed {w : Nat} {tokens : List Token} {term : Term} :
    Product w tokens term → Faithful tokens term.floats →
      Printed w (w + wildcards tokens) term
  | .single power, faithful => power.printed faithful
  | .product first listed second, faithful => by
    obtain ⟨operator, noPower, rfl⟩ := products_binary _ listed
    rw [wildcards_joined (products_solid _ listed), ← Nat.add_assoc]
    exact printed_binary (first.printed (faithful.mono (by simp) (by simp)))
      (second.printed (faithful.mono (by simp) (by simp))) noPower

theorem Power.printed {w : Nat} {tokens : List Token} {term : Term} :
    Power w tokens term → Faithful tokens term.floats → Printed w (w + wildcards tokens) term
  | .single signed, faithful => signed.printed faithful
  | .power first kind second, faithful => by
    rw [wildcards_joined (kind ▸ by decide), ← Nat.add_assoc]
    exact printed_power (first.printed (faithful.mono (by simp) (by simp)))
      (second.printed (faithful.mono (by simp) (by simp)))

theorem Signed.printed {w : Nat} {tokens : List Token} {term : Term} :
    Signed w tokens term → Faithful tokens term.floats → Printed w (w + wildcards tokens) term
  | .single primary, faithful => primary.printed faithful
  | .folded kind operand, faithful => by
    rw [wildcards_cons_of_ne (kind ▸ by decide), operand.consecutive.wildcards_eq_zero rfl]
    exact shows_number (Signed.folded kind operand).isWritable fun x same =>
      faithful.exact x (mem_floats_number same)
  | .minus kind operand unlike, faithful => by
    rw [wildcards_cons_of_ne (kind ▸ by decide)]
    exact printed_minus (operand.printed (faithful.mono (by simp) (by simp))) unlike

theorem Primary.printed {w : Nat} {tokens : List Token} {term : Term} :
    Primary w tokens term → Faithful tokens term.floats → Printed w (w + wildcards tokens) term
  | .number kind read, faithful => by
    rw [wildcards_cons_of_ne (kind ▸ by decide)]
    exact shows_number (Number.isWritable_of_read? read) fun x same =>
      faithful.exact x (mem_floats_number same)
  | .string kind, _ => by
    rw [wildcards_cons_of_ne (kind ▸ by decide)]
    exact shows_string w _
  | .variableName kind, faithful => by
    obtain ⟨word, named⟩ := (faithful.named _ (by simp)).word kind
    rw [wildcards_cons_of_ne (kind ▸ by decide)]
    exact shows_variableName word named []
  | .wildcard kind, _ => by
    rw [wildcards_cons_of_eq kind]
    exact shows_wildcard w _
  | .literal inner, faithful => inner.printed faithful
  | .group opened inner closed, faithful => by
    rw [wildcards_enclosed (opened ▸ by decide) (closed ▸ by decide)]
    exact inner.printed (faithful.mono (by simp) (by simp))
  | .nil opened closed, _ => by
    rw [wildcards_cons_of_ne (opened ▸ by decide), wildcards_cons_of_ne (closed ▸ by decide)]
    exact shows_nil w
  | .list opened items closed, faithful => by
    rw [wildcards_enclosed (opened ▸ by decide) (closed ▸ by decide)]
    exact (items.printed (faithful.mono (by simp) (by simp [floats_ofList]))).ofList
      (shows_nil _)
  | .listTail opened items kind rest closed, faithful => by
    rw [wildcards_enclosed (opened ▸ by decide) (closed ▸ by decide),
      wildcards_joined (kind ▸ by decide), ← Nat.add_assoc]
    exact (items.printed (faithful.mono (by simp) (by simp [floats_ofList]))).ofList
      (rest.printed (faithful.mono (fun _ member => by simp [member]) (by simp [floats_ofList])))

theorem Literal.printed {w : Nat} {tokens : List Token} {term : Term} :
    Literal w tokens term → Faithful tokens term.floats → Printed w (w + wildcards tokens) term
  | .truth kind, _ => by
    rw [wildcards_cons_of_ne (kind ▸ by decide)]
    exact shows_truth w
  | .falsity kind, _ => by
    rw [wildcards_cons_of_ne (kind ▸ by decide)]
    exact shows_falsity w
  | .name kind, faithful => by
    obtain ⟨word, named⟩ := (faithful.named _ (by simp)).word kind
    rw [wildcards_cons_of_ne (kind ▸ by decide)]
    exact shows_functor word named
  | .empty kind opened closed, faithful => by
    obtain ⟨word, named⟩ := (faithful.named _ (by simp)).word kind
    rw [wildcards_cons_of_ne (kind ▸ by decide), wildcards_cons_of_ne (opened ▸ by decide),
      wildcards_cons_of_ne (closed ▸ by decide)]
    exact shows_functor word named
  | .call kind opened arguments closed, faithful => by
    obtain ⟨word, named⟩ := (faithful.named _ (by simp)).word kind
    rw [wildcards_cons_of_ne (kind ▸ by decide),
      wildcards_enclosed (opened ▸ by decide) (closed ▸ by decide)]
    exact (arguments.printed (faithful.mono (fun _ member => by simp [member]) (by simp))).call
      word named

theorem Items.printed {w : Nat} {tokens : List Token} {terms : List Term} :
    Items w tokens terms → Faithful tokens (terms.flatMap floats) →
      PrintedAll w (w + wildcards tokens) terms
  | .single item, faithful => .single (item.printed (faithful.mono (List.Subset.refl _) (by simp)))
  | .more item kind rest, faithful => by
    rw [wildcards_joined (kind ▸ by decide), ← Nat.add_assoc]
    exact .more (item.printed (faithful.mono (by simp) (by simp)))
      (rest.printed (faithful.mono (by simp) (by simp)))

end

/-- What the text of a term spells is what is read from it. -/
theorem Shows.read {raise : Term → Term} (shows : Shows 0 high term value raise) :
    read term.render = .ok value := by
  have spelled := shows.whole.expression
  have formed : ∀ token ∈ scan .start term.render.toList, token.problem? = none := by
    intro token member
    rw [Source.scan_eq_filter] at member
    exact (spelled.neat.tidy .start token (List.mem_of_mem_filter member)).formed
  have tokens := Source.significant_eq term.render
  exact read_of_phrase ⟨_, ⟨tokens ▸ formed, .inl tokens⟩, (spelled.counted .start).2⟩

/-- A term that was read is read back from its text as the text groups it: with each power whose base
is a power regrouped to the right, and otherwise the same. -/
theorem read_render {text : String} {term : Term} (done : read text = .ok term)
    (exact : ∀ x ∈ term.floats, x.ReadsBack) : read term.render = .ok term.regroup := by
  obtain ⟨tokens, spans, derivation⟩ := phrase_of_read done
  have named : ∀ token ∈ tokens, Named token := by
    obtain ⟨rest, -, whole, -⟩ := spans.start
    exact fun token member => Source.named_scan (whole ▸ List.mem_append_left rest member)
  have printed := derivation.printed ⟨named, exact⟩
  rw [Nat.zero_add] at printed
  exact printed.read

/-- Just the terms without a power as the base of a power are read back from their text as the same
term. -/
theorem read_render_iff {text : String} {term : Term} (done : read text = .ok term)
    (exact : ∀ x ∈ term.floats, x.ReadsBack) :
    read term.render = .ok term ↔ term.RightNested := by
  rw [read_render done exact, Except.ok.injEq]
  exact regroup_eq_self_iff term

/-- The square of a power is shown without parentheses, and read back as the power of a square. -/
example : (compound "**" [.compound "**" [.number (.int 2), .number (.int 3)],
    .number (.int 2)]).render = "2 ** 3 ** 2" ∧
    read "2 ** 3 ** 2" = .ok (.compound "**" [.number (.int 2),
      .compound "**" [.number (.int 3), .number (.int 2)]]) :=
  ⟨rfl, rfl⟩

end AgentSpeak.Term
