import AgentSpeak.Proofs.Source.Sequences
import AgentSpeak.Proofs.Term.Legible

namespace AgentSpeak.Term

open Source (Parser Kind Token Surroundings)
open Source.Parser

/-- A name has the text of a name. -/
structure Spelled (token : Token) : Prop where
  functor : token.kind = .functor → IsWord (String.ofList token.text)
  variableName : token.kind = .variableName →
    IsWord (String.ofList token.text) ∧ String.ofList token.text ≠ "_"

variable {S : Surroundings} {bound : Nat} {expression another : Parser Term}

/-- Terms of two runs, of which the second has seen more wildcards. -/
abbrev Copies (S : Surroundings) : Likeness Term :=
  Copied S.shift

theorem lists_copies : Lists (Copies S) (CopiedAll S.shift) where
  single range copied := copied.single range
  cons lower upper first rest := first.cons rest lower upper

variable (fit : S.Fit)

section Literals

variable (reads : Reads S bound expression another (Copies S))

include fit reads

theorem stuck_commaSeparated {β : Type} {next : List Term → Parser β} (some : 0 < bound)
    (stuck : ∀ terms, Stuck S (next terms)) :
    Stuck S (budget >>= fun fuel => expression.commaSeparated fuel >>= next) := by
  refine stuck_budget fun fuel enough => ?_
  have agree : ∀ w, Agree S False w [] [] (expression.commaSeparated fuel)
      (another.commaSeparated fuel) (CopiedAll S.shift w) := fun _ =>
    agree_commaSeparated fit lists_copies reads fuel fuel .nil some enough enough
  exact Agree.stuck agree stuck

/-- What comes behind items between commas needs a token. -/
theorem agree_items {β : Type} {firm : Prop} {next next' : List Term → Parser β}
    {related : Nat → β → β → Prop} {w : Nat} {p q : List Token} (paired : S.Paired p q)
    (short : p.length < bound)
    (rest : ∀ w' left left' terms terms', w ≤ w' → left.length ≤ p.length → S.Paired left left' →
      CopiedAll S.shift w w' terms terms' → Agree S firm w' left left' (next terms) (next' terms')
        related)
    (stuck : ∀ terms, Stuck S (next terms)) :
    Agree S firm w p q (budget >>= fun fuel => expression.commaSeparated fuel >>= next)
      (budget >>= fun fuel => another.commaSeparated fuel >>= next') related :=
  agree_budget paired fun fuel fuel' enough enough' =>
    Agree.bind_stuck (agree_commaSeparated fit lists_copies reads fuel fuel' paired short enough
      enough') (fun w' left left' terms terms' later consumed paired' items =>
        rest w' left left' terms terms' later consumed.length_le paired' items) stuck

theorem agree_arguments (functor : String) {w : Nat} {p q : List Token} (paired : S.Paired p q)
    (short : p.length ≤ bound) :
    Agree S True w p q (parseArguments expression functor) (parseArguments another functor)
      (CopiedAll S.shift w) := by
  rw [parseArguments, parseArguments]
  refine agree_accept fit (fit.lacks rfl) paired ?_ (agree_pure paired copiedAll_nil)
  rintro t t' rest rest' rfl rfl others
  rw [List.length_cons] at short
  have stuck : ∀ arguments, Stuck S
      (do let _ ← expect .closeParen (.argumentEnd functor); return (arguments : List Term)) :=
    fun _ => stuck_expect fit rfl _ _
  have closed : ∀ w' left left' arguments arguments', w ≤ w' → left.length ≤ rest.length →
      S.Paired left left' → CopiedAll S.shift w w' arguments arguments' →
      Agree S True w' left left'
        (do let _ ← expect .closeParen (.argumentEnd functor); return arguments)
        (do let _ ← expect .closeParen (.argumentEnd functor); return arguments')
        (CopiedAll S.shift w) := by
    intro w' left left' arguments arguments' _ _ paired' copied
    refine agree_expect fit rfl _ paired' ?_
    intro _ _ _ _ _ _ _ behind
    exact agree_pure behind copied
  refine agree_check_stuck fit rfl others ?_ ?_
  · intro found
    cases found with
    | true => exact closed w rest rest' [] [] (Nat.le_refl w) (Nat.le_refl _) others copiedAll_nil
    | false => exact agree_items fit reads others (by omega) closed stuck
  · exact stuck_commaSeparated fit reads (by omega) stuck

theorem agree_list {w : Nat} {p q : List Token} (paired : S.Paired p q)
    (short : p.length < bound) :
    Agree S True w p q (parseListWith expression) (parseListWith another) (Copied S.shift w) := by
  rw [parseListWith, parseListWith]
  have stuck : ∀ items tail, Stuck S
      (do let _ ← expect .closeBracket .listEnd; return ofList items tail) :=
    fun _ _ => stuck_expect fit rfl _ _
  have closed : ∀ w' w'' left left' items items' tail tail', w ≤ w' → w' ≤ w'' →
      S.Paired left left' → CopiedAll S.shift w w' items items' →
      Copied S.shift w' w'' tail tail' →
      Agree S True w'' left left'
        (do let _ ← expect .closeBracket .listEnd; return ofList items tail)
        (do let _ ← expect .closeBracket .listEnd; return ofList items' tail')
        (Copied S.shift w) := by
    intro w' w'' left left' items items' tail tail' later latest paired' copied ending
    refine agree_expect fit rfl _ paired' ?_
    intro _ _ _ _ _ _ _ behind
    exact agree_pure behind (copied.list ending later latest)
  have noTail : ∀ low high, Copied S.shift low high nil nil := fun _ _ => copied_self .nil rfl
  refine agree_accept_stuck fit rfl paired ?_ ?_ ?_
  · rintro t t' rest rest' rfl rfl others
    exact agree_pure others (noTail w w)
  · refine agree_items fit reads paired short ?_ ?_
    · intro w' left left' items items' later fewer paired' copied
      refine agree_accept_stuck fit rfl paired' ?_ ?_ (stuck items nil)
      · rintro t t' rest rest' rfl rfl others
        rw [List.length_cons] at fewer
        refine Agree.bind (reads w' rest rest' others (by omega)) ?_
        intro w'' left left' tail tail' latest _ behind ending
        exact closed w' w'' left left' items items' tail tail' later latest behind copied ending
      · exact closed w' w' left left' items items' nil nil later (Nat.le_refl w') paired' copied
          (noTail w' w')
    · intro items
      exact stuck_accept fit rfl (stuck items nil)
  · refine stuck_commaSeparated fit reads (by omega) fun items => ?_
    exact stuck_accept fit rfl (stuck items nil)

end Literals

section Primaries

variable (spelled : ∀ token, S.allowed token → Spelled token)
  (reads : Reads S bound expression another (Copies S))

include fit spelled reads

theorem reads_literal :
    Reads S (bound + 1) (parseLiteralWith expression) (parseLiteralWith another) (Copies S) := by
  intro w p q paired short
  rw [parseLiteralWith, parseLiteralWith]
  refine agree_peek_needed fit .literal paired ?_ ?_ ?_
  · intro token closes
    split <;> simp_all [Kind.closes]
  · intro token closes
    split <;> simp_all [Kind.closes]
  rintro t t' rest rest' rfl rfl moved own formed others
  rw [moved.kind, moved.text]
  rw [List.length_cons] at short
  split
  next kind =>
    exact agree_advance moved formed (agree_pure others (copied_word (by decide)))
  next kind =>
    exact agree_advance moved formed (agree_pure others (copied_word (by decide)))
  next kind =>
    refine agree_advance moved formed ?_
    refine Agree.map (agree_arguments fit reads _ others (by omega)) ?_
    intro w' arguments arguments' later copied
    exact copied.literal ((spelled t own).functor kind)
  next => exact agree_fail fit paired _

theorem reads_primary :
    Reads S (bound + 1) (parsePrimaryWith expression) (parsePrimaryWith another) (Copies S) := by
  intro w p q paired short
  rw [parsePrimaryWith, parsePrimaryWith]
  refine agree_peek_needed fit .term paired ?_ ?_ ?_
  · intro token closes
    split <;> simp_all [Kind.closes]
  · intro token closes
    split <;> simp_all [Kind.closes]
  rintro t t' rest rest' rfl rfl moved own formed others
  have literal := reads_literal fit spelled reads w _ _ paired short
  rw [moved.kind, moved.text]
  rw [List.length_cons] at short
  split
  next =>
    refine agree_advance moved formed ?_
    cases read : Number.read? t.text with
    | some value =>
      rw [numberOf_read read, numberOf_read (moved.text ▸ read)]
      exact agree_pure others (copied_self (.number _) rfl)
    | none =>
      rw [numberOf_unread read, numberOf_unread (moved.text ▸ read)]
      exact agree_throw others (.inl own) rfl
  next => exact agree_advance moved formed (agree_pure others (copied_self (.string _) rfl))
  next kind =>
    have name := (spelled t own).variableName kind
    exact agree_advance moved formed (agree_pure others (copied_named name.1 name.2))
  next =>
    exact agree_advance moved formed (agree_wildcard (agree_pure others (copied_wildcard w)))
  next => exact literal
  next => exact literal
  next => exact literal
  next =>
    refine agree_advance moved formed ?_
    refine Agree.bind (reads w rest rest' others (by omega)) ?_
    intro w' left left' inner inner' later consumed paired' copied
    refine agree_expect fit rfl _ paired' ?_
    intro _ _ _ _ _ _ _ behind
    exact agree_pure behind copied
  next => exact agree_advance moved formed (agree_list fit reads others (by omega))
  next => exact agree_fail fit paired _

end Primaries

/-- A minus sign is read before a term as often as it is there. -/
theorem agree_unary (fit : S.Fit) {primary primary' : Parser Term}
    (reads : Reads S bound primary primary' (Copies S)) (fuel fuel' : Nat) {w : Nat}
    {p q : List Token} (paired : S.Paired p q) (short : p.length < bound)
    (enough : p.length < fuel) (enough' : p.length < fuel') :
    Agree S True w p q (parseUnary primary fuel) (parseUnary primary' fuel')
      (Copied S.shift w) := by
  induction fuel generalizing fuel' w p q with
  | zero => exact absurd enough (Nat.not_lt_zero _)
  | succ fuel ih =>
    obtain ⟨fuel', rfl⟩ := Nat.exists_eq_add_one_of_ne_zero (Nat.ne_zero_of_lt enough')
    rw [parseUnary, parseUnary]
    refine agree_accept fit (fit.lacks rfl) paired ?_ (reads w p q paired short)
    rintro t t' rest rest' rfl rfl others
    rw [List.length_cons] at short enough enough'
    refine Agree.map (ih fuel' others (by omega) (by omega) (by omega)) ?_
    intro w' operand operand' later copied
    exact copied.negate later

theorem agree_power (fit : S.Fit) {unary unary' : Parser Term}
    (reads : Reads S bound unary unary' (Copies S)) (fuel fuel' : Nat) {w : Nat}
    {p q : List Token} (paired : S.Paired p q) (short : p.length < bound)
    (enough : p.length < fuel) (enough' : p.length < fuel') :
    Agree S True w p q (parsePower unary fuel) (parsePower unary' fuel') (Copied S.shift w) := by
  induction fuel generalizing fuel' w p q with
  | zero => exact absurd enough (Nat.not_lt_zero _)
  | succ fuel ih =>
    obtain ⟨fuel', rfl⟩ := Nat.exists_eq_add_one_of_ne_zero (Nat.ne_zero_of_lt enough')
    rw [parsePower, parsePower]
    refine Agree.bind (reads w p q paired short) ?_
    intro w' left left' base base' later consumed paired' copied
    refine agree_accept fit (fit.lacks rfl) paired' ?_ (agree_pure paired' copied)
    rintro t t' rest rest' rfl rfl others
    have fewer := consumed.length_le
    rw [List.length_cons] at fewer
    refine Agree.map (ih fuel' others (by omega) (by omega) (by omega)) ?_
    intro w'' exponent exponent' latest copied'
    exact Copied.binary .power copied copied' later latest

theorem combines_additive : Combines additive? (Copies S) := by
  intro kind combine low middle high left left' right right' found lower upper first second
  unfold additive? at found
  split at found <;> cases found
  · exact Copied.binary .add first second lower upper
  · exact Copied.binary .sub first second lower upper

theorem combines_multiplicative : Combines multiplicative? (Copies S) := by
  intro kind combine low middle high left left' right right' found lower upper first second
  unfold multiplicative? at found
  split at found <;> cases found
  · exact Copied.binary .mul first second lower upper
  · exact Copied.binary .quotient first second lower upper
  · exact Copied.binary .floorQuotient first second lower upper
  · exact Copied.binary .modulo first second lower upper

/-- No operator ends a term. -/
theorem no_operator {kind : Kind} (ends : kind.endsTerm = true) :
    additive? kind = none ∧ multiplicative? kind = none := by
  cases kind <;> first | exact ⟨rfl, rfl⟩ | cases ends

/-- Expressions that may nest deeper than there are tokens are read the same. -/
theorem reads_within (fit : S.Fit) (spelled : ∀ token, S.allowed token → Spelled token)
    (depth depth' : Nat)
    (deep : bound ≤ depth) (deep' : bound ≤ depth') :
    Reads S bound (parseWithin depth) (parseWithin depth') (Copies S) := by
  induction bound generalizing depth depth' with
  | zero => exact fun w p q paired short => absurd short (Nat.not_lt_zero _)
  | succ bound ih =>
    obtain ⟨depth, rfl⟩ := Nat.exists_eq_add_one_of_ne_zero (Nat.ne_zero_of_lt deep)
    obtain ⟨depth', rfl⟩ := Nat.exists_eq_add_one_of_ne_zero (Nat.ne_zero_of_lt deep')
    have inner := ih depth depth' (Nat.le_of_succ_le_succ deep) (Nat.le_of_succ_le_succ deep')
    have primary := reads_primary fit spelled inner
    have unary : Reads S (bound + 1)
        (do parseUnary (parsePrimaryWith (parseWithin depth)) (← budget))
        (do parseUnary (parsePrimaryWith (parseWithin depth')) (← budget)) (Copies S) :=
      fun w p q paired short => agree_budget paired fun fuel fuel' enough enough' =>
        agree_unary fit primary fuel fuel' paired short enough enough'
    have power := fun w p q (paired : S.Paired p q) short =>
      agree_budget paired fun fuel fuel' enough enough' =>
        agree_power fit unary fuel fuel' (w := w) paired short enough enough'
    have ends : S.edge.kind.endsTerm = true := by
      have closes := fit.ends
      generalize S.edge.kind = kind at closes
      cases kind <;> first | rfl | cases closes
    rw [parseWithin, parseWithin]
    refine Reads.chain fit combines_additive (no_operator ends).1 (no_operator fit.quiet).1 ?_
    exact Reads.chain fit combines_multiplicative (no_operator ends).2 (no_operator fit.quiet).2
      power

theorem reads_parse (fit : S.Fit) (spelled : ∀ token, S.allowed token → Spelled token)
    (bound : Nat) :
    Reads S bound parse parse (Copies S) := by
  intro w p q paired short
  rw [parse]
  refine agree_budget paired fun depth depth' deep deep' => ?_
  exact reads_within fit spelled depth depth' deep deep' w p q paired (Nat.lt_succ_self _)

end AgentSpeak.Term
