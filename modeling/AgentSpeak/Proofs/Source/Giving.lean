import AgentSpeak.Proofs.Source.Agreement

namespace AgentSpeak.Source

/-- How many wildcards are among some tokens. -/
def wildcards (tokens : List Token) : Nat :=
  tokens.countP fun token => token.kind == .wildcard

variable {token : Token}

@[simp] theorem wildcards_nil : wildcards [] = 0 := rfl

@[simp] theorem wildcards_append (first second : List Token) :
    wildcards (first ++ second) = wildcards first + wildcards second :=
  List.countP_append

theorem wildcards_cons_of_ne (other : token.kind ≠ .wildcard) (rest : List Token) :
    wildcards (token :: rest) = wildcards rest :=
  List.countP_cons_of_neg (by simpa using other)

theorem wildcards_cons_of_eq (kind : token.kind = .wildcard) (rest : List Token) :
    wildcards (token :: rest) = wildcards rest + 1 :=
  List.countP_cons_of_pos (by simpa using kind)

theorem wildcards_joined (other : token.kind ≠ .wildcard) (before after : List Token) :
    wildcards (before ++ token :: after) = wildcards before + wildcards after := by
  rw [wildcards_append, wildcards_cons_of_ne other]

theorem wildcards_enclosed {opening closing : Token} (opened : opening.kind ≠ .wildcard)
    (closed : closing.kind ≠ .wildcard) (tokens : List Token) :
    wildcards (opening :: (tokens ++ [closing])) = wildcards tokens := by
  rw [wildcards_cons_of_ne opened, wildcards_joined closed]
  rfl

namespace Parser

variable {α β : Type}

/-- A parser gives a value of some tokens behind `w` wildcards, in front of any well-formed token
that is not among those that carry them on. -/
def Gives (carriers : List Kind) (parser : Parser α) (w : Nat) (tokens : List Token) (value : α) :
    Prop :=
  ∀ rest finish, (edge rest finish).problem? = none → (edge rest finish).kind ∉ carriers →
    parser ⟨tokens ++ rest, finish, w⟩ = (.ok value, ⟨rest, finish, w + wildcards tokens⟩)

section Steps

variable {carriers others : List Kind} {parser : Parser α} {w : Nat} {kind : Kind}
  {tokens before after : List Token} {value : α} {result : β}

theorem gives_pure (carriers : List Kind) (w : Nat) (value : α) :
    Gives carriers (pure value) w [] value :=
  fun _ _ _ _ => rfl

theorem Gives.mono (gives : Gives carriers parser w tokens value) (more : carriers ⊆ others) :
    Gives others parser w tokens value :=
  fun rest finish formed ends => gives rest finish formed fun carried => ends (more carried)

/-- What is read up to a token that carries nothing on is read in front of that token. -/
theorem Gives.upTo {next : α → Parser β} (first : Gives carriers parser w before value)
    (formed : token.problem? = none) (stops : token.kind ∉ carriers)
    (rest : Gives others (next value) (w + wildcards before) (token :: after) result) :
    Gives others (parser >>= next) w (before ++ token :: after) result := by
  intro more finish formed' ends
  have ran := first (token :: (after ++ more)) finish formed stops
  rw [List.append_assoc, List.cons_append, run_then ran, wildcards_append, ← Nat.add_assoc]
  exact rest more finish formed' ends

/-- The last step that reads tokens. -/
theorem Gives.last {next : α → Parser β} (first : Gives carriers parser w tokens value)
    (more : carriers ⊆ others)
    (rest : Gives others (next value) (w + wildcards tokens) [] result) :
    Gives others (parser >>= next) w tokens result := by
  intro behind finish formed ends
  rw [run_then (first.mono more behind finish formed ends)]
  exact rest behind finish formed ends

theorem gives_budget {next : Nat → Parser β}
    (rest : ∀ fuel, tokens.length < fuel → Gives others (next fuel) w tokens result) :
    Gives others (budget >>= next) w tokens result := by
  intro more finish formed ends
  rw [run_then (run_budget _)]
  refine rest _ ?_ more finish formed ends
  rw [List.length_append]
  omega

/-- Nothing is read where no token of a kind follows, if such a token would carry on. -/
theorem gives_unaccepted_end {next : Bool → Parser β} (listed : kind ∈ others)
    (rest : Gives others (next false) w [] result) :
    Gives others (accept kind >>= next) w [] result := by
  intro more finish formed ends
  have other : (edge more finish).kind ≠ kind := fun same => ends (same ▸ listed)
  rw [List.nil_append, run_then (@run_accept_false ⟨more, finish, w⟩ kind formed other)]
  exact rest more finish formed ends

section Front

variable (formed : token.problem? = none)

include formed

theorem gives_peek {next : Token → Parser β}
    (rest : Gives others (next token) w (token :: tokens) result) :
    Gives others (peek >>= next) w (token :: tokens) result := by
  intro more finish formed' ends
  rw [List.cons_append, run_then (@run_peek_formed ⟨token :: (tokens ++ more), finish, w⟩ formed)]
  exact rest more finish formed' ends

theorem gives_advance {next : Token → Parser β} (solid : token.kind ≠ .wildcard)
    (rest : Gives others (next token) w tokens result) :
    Gives others (advance >>= next) w (token :: tokens) result := by
  intro more finish formed' ends
  rw [List.cons_append, wildcards_cons_of_ne solid,
    run_then (@run_advance ⟨token :: (tokens ++ more), finish, w⟩ formed)]
  exact rest more finish formed' ends

/-- A wildcard is read and counted. -/
theorem gives_counted {next : Variable → Parser β} (kind : token.kind = .wildcard)
    (rest : Gives others (next (.wildcard (w + 1))) (w + 1) tokens result) :
    Gives others (advance >>= fun _ => wildcard >>= next) w (token :: tokens) result := by
  intro more finish formed' ends
  rw [List.cons_append, wildcards_cons_of_eq kind, Nat.add_comm (wildcards tokens) 1, ← Nat.add_assoc,
    run_then (@run_advance ⟨token :: (tokens ++ more), finish, w⟩ formed), run_then (run_wildcard _)]
  exact rest more finish formed' ends

theorem gives_accept {next : Bool → Parser β} (same : token.kind = kind) (solid : kind ≠ .wildcard)
    (rest : Gives others (next true) w tokens result) :
    Gives others (accept kind >>= next) w (token :: tokens) result := by
  intro more finish formed' ends
  rw [List.cons_append, wildcards_cons_of_ne (same ▸ solid),
    run_then (@run_accept_true ⟨token :: (tokens ++ more), finish, w⟩ kind formed same)]
  exact rest more finish formed' ends

theorem gives_unaccepted {next : Bool → Parser β} (other : token.kind ≠ kind)
    (rest : Gives others (next false) w (token :: tokens) result) :
    Gives others (accept kind >>= next) w (token :: tokens) result := by
  intro more finish formed' ends
  rw [List.cons_append,
    run_then (@run_accept_false ⟨token :: (tokens ++ more), finish, w⟩ kind formed other)]
  exact rest more finish formed' ends

theorem gives_check {next : Bool → Parser β}
    (rest : Gives others (next (decide (token.kind = kind))) w (token :: tokens) result) :
    Gives others (check kind >>= next) w (token :: tokens) result := by
  intro more finish formed' ends
  rw [List.cons_append, run_then (@run_check ⟨token :: (tokens ++ more), finish, w⟩ kind formed)]
  exact rest more finish formed' ends

theorem gives_expect {next : Token → Parser β} {expectation : Expectation}
    (same : token.kind = kind) (solid : kind ≠ .wildcard)
    (rest : Gives others (next token) w tokens result) :
    Gives others (expect kind expectation >>= next) w (token :: tokens) result := by
  intro more finish formed' ends
  rw [List.cons_append, wildcards_cons_of_ne (same ▸ solid),
    run_then (@run_expect ⟨token :: (tokens ++ more), finish, w⟩ kind formed same expectation)]
  exact rest more finish formed' ends

end Front

end Steps

/-- A chain of operands has read some tokens as a value and can go on behind them. -/
def Chained (operator? : Kind → Option (α → α → α)) (carriers : List Kind) (operand : Parser α)
    (w : Nat) (tokens : List Token) (value : α) : Prop :=
  ∀ rest finish, (edge rest finish).problem? = none → (edge rest finish).kind ∉ carriers →
    ∃ fuel, rest.length < fuel ∧ chain operator? operand ⟨tokens ++ rest, finish, w⟩ =
      chainFrom operator? operand fuel value ⟨rest, finish, w + wildcards tokens⟩

variable {operator? : Kind → Option (α → α → α)} {carriers others : List Kind}
  {operand parser : Parser α} {w : Nat} {tokens before after : List Token} {value left right : α}

theorem Gives.chained (gives : Gives carriers operand w tokens value) :
    Chained operator? carriers operand w tokens value := by
  intro rest finish formed ends
  refine ⟨rest.length + 1, Nat.lt_succ_self _, ?_⟩
  rw [chain, run_then (gives rest finish formed ends), run_then (run_budget _)]

/-- A chain goes on over an operator that does not carry on its operands. -/
theorem Chained.step {combine : α → α → α}
    (first : Chained operator? carriers operand w before left)
    (second : Gives carriers operand (w + wildcards before) after right)
    (found : operator? token.kind = some combine) (formed : token.problem? = none)
    (stops : token.kind ∉ carriers) (solid : token.kind ≠ .wildcard) :
    Chained operator? carriers operand w (before ++ token :: after) (combine left right) := by
  intro rest finish formed' ends
  obtain ⟨fuel, enough, ran⟩ := first (token :: (after ++ rest)) finish formed stops
  obtain ⟨fuel, rfl⟩ := Nat.exists_eq_add_one_of_ne_zero (Nat.ne_zero_of_lt enough)
  rw [List.length_cons, List.length_append] at enough
  refine ⟨fuel, by omega, ?_⟩
  rw [List.append_assoc, List.cons_append, ran, wildcards_joined solid, ← Nat.add_assoc]
  refine run_chainFrom_step ?_ found (second rest finish formed' ends) fuel left
  exact formed

/-- A chain ends in front of a token that carries on neither it nor its operands. -/
theorem Chained.ends (chained : Chained operator? carriers operand w tokens value)
    (more : carriers ⊆ others) (stops : ∀ kind, kind ∉ others → operator? kind = none) :
    Gives others (chain operator? operand) w tokens value := by
  intro rest finish formed ends
  obtain ⟨fuel, -, ran⟩ := chained rest finish formed fun carried => ends (more carried)
  have formed' : (Cursor.mk rest finish (w + wildcards tokens)).token.problem? = none := formed
  rw [ran, run_chainFrom_end formed' (stops _ ends)]

end Parser

end AgentSpeak.Source
