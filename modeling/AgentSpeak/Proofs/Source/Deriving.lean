import AgentSpeak.Proofs.Source.Giving
import AgentSpeak.Proofs.Source.Orderly

namespace AgentSpeak.Source

/-- A token that is not the end of input is the first of those that are left. -/
theorem upcoming_eq {cursor : Cursor} (ended : cursor.finish.kind = .endOfInput)
    (solid : cursor.token.kind ≠ .endOfInput) :
    cursor.upcoming = cursor.token :: (Parser.behind cursor).upcoming := by
  obtain ⟨_ | ⟨first, rest⟩, finish, w⟩ := cursor
  · exact absurd ended solid
  · rfl

theorem passes_token {cursor : Cursor} (ended : cursor.finish.kind = .endOfInput)
    (formed : cursor.token.problem? = none) (solid : cursor.token.kind ≠ .endOfInput) :
    Passes [cursor.token] cursor (Parser.behind cursor) :=
  ⟨upcoming_eq ended solid, rfl, by simpa using formed⟩

namespace Parser

variable {α β : Type}

/-- Where a parser gives a value from a place, it has read tokens that make it up. The relation also
knows how many wildcards have been counted in the end. -/
def DerivesAt (derives : Nat → List Token → α → Prop) (cursor : Cursor) (parser : Parser α) : Prop :=
  ∀ value after, parser cursor = (.ok value, after) →
    ∃ tokens, Passes tokens cursor after ∧ derives after.wildcards tokens value

/-- A parser gives nothing but values that the tokens it reads make up, behind any number of wildcards
that have been counted before. -/
def Derives (derives : Nat → Nat → List Token → α → Prop) (parser : Parser α) : Prop :=
  ∀ cursor, cursor.finish.kind = .endOfInput → DerivesAt (derives cursor.wildcards) cursor parser

variable {cursor : Cursor} {parser : Parser α} {kind : Kind}
  {derives : Nat → List Token → α → Prop} {derives' : Nat → List Token → β → Prop}

theorem DerivesAt.mono {others : Nat → List Token → α → Prop} (each : DerivesAt derives cursor parser)
    (more : ∀ {high tokens value}, derives high tokens value → others high tokens value) :
    DerivesAt others cursor parser := by
  intro value after done
  obtain ⟨tokens, passes, derived⟩ := each value after done
  exact ⟨tokens, passes, more derived⟩

theorem derivesAt_pure {value : α} (derived : derives cursor.wildcards [] value) :
    DerivesAt derives cursor (pure value) := by
  rintro _ _ ⟨⟩
  exact ⟨[], .refl cursor, derived⟩

theorem derivesAt_fail (expectation : Expectation) : DerivesAt derives cursor (fail expectation) :=
  fun _ _ done => absurd done not_ok_fail

theorem derivesAt_throw (problem : Problem) : DerivesAt derives cursor (throw problem) := by
  rintro _ _ ⟨⟩

/-- An attempt gives what the parser has read, or nothing of nothing. -/
theorem derivesAt_attempt {inner : Parser (Option α)}
    (each : DerivesAt (fun high tokens found => ∀ value, found = some value →
      derives high tokens value) cursor inner) :
    DerivesAt (fun high tokens found =>
      (found = none ∧ tokens = []) ∨ ∃ value, found = some value ∧ derives high tokens value)
      cursor (attempt inner) := by
  intro found after done
  rcases attempt_cases done with ⟨value, same, ran⟩ | ⟨same, rewound⟩ | ⟨_, _, ⟨⟩, _⟩
  · obtain ⟨tokens, passes, derived⟩ := each _ after ran
    cases same
    exact ⟨tokens, passes, .inr ⟨value, rfl, derived value rfl⟩⟩
  · cases same
    exact ⟨[], rewound ▸ ⟨rfl, rfl, by simp⟩, .inl ⟨rfl, rfl⟩⟩

theorem derivesAt_bind {next : α → Parser β} (first : DerivesAt derives cursor parser)
    (rest : ∀ value middle tokens, Passes tokens cursor middle →
      derives middle.wildcards tokens value →
        DerivesAt (fun high more result => derives' high (tokens ++ more) result) middle
          (next value)) :
    DerivesAt derives' cursor (parser >>= next) := by
  intro result after done
  obtain ⟨value, middle, ran, ranNext⟩ := ok_bind done
  obtain ⟨tokens, passes, derived⟩ := first value middle ran
  obtain ⟨more, passes', whole⟩ := rest value middle tokens passes derived result after ranNext
  exact ⟨tokens ++ more, passes.trans passes', whole⟩

/-- A value put together from the one that is read. -/
theorem derivesAt_map {f : α → β} (first : DerivesAt derives cursor parser)
    (rest : ∀ high tokens value, derives high tokens value → derives' high tokens (f value)) :
    DerivesAt derives' cursor (parser >>= fun value => pure (f value)) := by
  intro result after done
  obtain ⟨value, _, ran, same⟩ := ok_bind done
  cases same
  obtain ⟨tokens, passes, derived⟩ := first value _ ran
  exact ⟨tokens, passes, rest _ tokens value derived⟩

theorem derivesAt_peek {next : Token → Parser α}
    (rest : cursor.token.problem? = none → DerivesAt derives cursor (next cursor.token)) :
    DerivesAt derives cursor (peek >>= next) := by
  intro value after done
  obtain ⟨token, _, peeked, ran⟩ := ok_bind done
  obtain ⟨formed, rfl, rfl⟩ := ok_peek peeked
  exact rest formed value after ran

theorem derivesAt_budget {next : Nat → Parser α}
    (rest : DerivesAt derives cursor (next (cursor.upcoming.length + 1))) :
    DerivesAt derives cursor (budget >>= next) := by
  intro value after done
  rw [run_then (run_budget cursor)] at done
  exact rest value after done

section Front

variable (ended : cursor.finish.kind = .endOfInput)

include ended

theorem derivesAt_advance {next : Token → Parser α} (same : cursor.token.kind = kind)
    (solid : kind ≠ .endOfInput)
    (rest : DerivesAt (fun high tokens value => derives high (cursor.token :: tokens) value)
      (behind cursor) (next cursor.token)) :
    DerivesAt derives cursor (advance >>= next) := by
  intro value after done
  obtain ⟨token, _, advanced, ran⟩ := ok_bind done
  obtain ⟨formed, rfl, rfl⟩ := ok_advance advanced
  obtain ⟨tokens, passes, derived⟩ := rest value after ran
  exact ⟨_, (passes_token ended formed (same ▸ solid)).trans passes, derived⟩

theorem derivesAt_expect {next : Token → Parser α} {expectation : Expectation}
    (solid : kind ≠ .endOfInput)
    (rest : cursor.token.kind = kind →
      DerivesAt (fun high tokens value => derives high (cursor.token :: tokens) value)
        (behind cursor) (next cursor.token)) :
    DerivesAt derives cursor (expect kind expectation >>= next) := by
  intro value after done
  obtain ⟨token, _, expected, ran⟩ := ok_bind done
  obtain ⟨formed, same, rfl, rfl⟩ := ok_expect expected
  obtain ⟨tokens, passes, derived⟩ := rest same value after ran
  exact ⟨_, (passes_token ended formed (same ▸ solid)).trans passes, derived⟩

theorem derivesAt_accept {next : Bool → Parser α} (solid : kind ≠ .endOfInput)
    (accepted : cursor.token.kind = kind →
      DerivesAt (fun high tokens value => derives high (cursor.token :: tokens) value)
        (behind cursor) (next true))
    (other : cursor.token.kind ≠ kind → DerivesAt derives cursor (next false)) :
    DerivesAt derives cursor (accept kind >>= next) := by
  intro value after done
  obtain ⟨found, _, ran, ranNext⟩ := ok_bind done
  obtain ⟨formed, ⟨rfl, same, rfl⟩ | ⟨rfl, different, rfl⟩⟩ := ok_accept ran
  · obtain ⟨tokens, passes, derived⟩ := accepted same value after ranNext
    exact ⟨_, (passes_token ended formed (same ▸ solid)).trans passes, derived⟩
  · exact other different value after ranNext

end Front

theorem derivesAt_check {next : Bool → Parser α}
    (rest : ∀ found, found = decide (cursor.token.kind = kind) →
      DerivesAt derives cursor (next found)) :
    DerivesAt derives cursor (check kind >>= next) := by
  intro value after done
  obtain ⟨found, _, ran, ranNext⟩ := ok_bind done
  obtain ⟨-, same, rfl⟩ := ok_check ran
  exact rest found same value after ranNext

/-- A wildcard is counted. -/
theorem derivesAt_wildcard {next : Variable → Parser α}
    (rest : DerivesAt derives { cursor with wildcards := cursor.wildcards + 1 }
      (next (.wildcard (cursor.wildcards + 1)))) :
    DerivesAt derives cursor (wildcard >>= next) := by
  intro value after done
  rw [run_then (run_wildcard cursor)] at done
  obtain ⟨tokens, passes, derived⟩ := rest value after done
  exact ⟨tokens, ⟨passes.split, passes.finish, passes.formed⟩, derived⟩

section Chains

variable {operator? : Kind → Option (α → α → α)} {operand : Parser α}
  {chains operands : Nat → Nat → List Token → α → Prop}
  (joins : ∀ {low middle high : Nat} {before after : List Token} {sign : Token} {left right : α}
    {combine : α → α → α}, operator? sign.kind = some combine → chains low middle before left →
      operands middle high after right →
        chains low high (before ++ sign :: after) (combine left right))
  (none : operator? .endOfInput = none) (each : Derives operands operand)

include joins none each

/-- What has been read of a chain is carried on by what is still read of it. -/
theorem derivesAt_chainFrom (fuel : Nat) {low : Nat} {before : List Token} {left : α}
    (ended : cursor.finish.kind = .endOfInput) (begun : chains low cursor.wildcards before left) :
    DerivesAt (fun high tokens value => chains low high (before ++ tokens) value) cursor
      (chainFrom operator? operand fuel left) := by
  have stops : chains low cursor.wildcards (before ++ []) left := by rwa [List.append_nil]
  induction fuel generalizing cursor before left with
  | zero => exact derivesAt_pure stops
  | succ fuel ih =>
    rw [chainFrom]
    refine derivesAt_peek fun formed => ?_
    split
    next => exact derivesAt_pure stops
    next combine found =>
      have solid : cursor.token.kind ≠ .endOfInput := by
        intro end'
        rw [end', none] at found
        cases found
      apply derivesAt_advance ended rfl solid
      refine derivesAt_bind (each (behind cursor) ended) fun right middle tokens passes derived => ?_
      have joined := joins found begun derived
      have rest := ih (passes.finish ▸ ended) joined (by rwa [List.append_nil])
      simpa only [List.append_assoc, List.cons_append] using rest

theorem derives_chain
    (single : ∀ {low high : Nat} {tokens : List Token} {value : α},
      operands low high tokens value → chains low high tokens value) :
    Derives chains (chain operator? operand) := by
  intro cursor ended
  rw [chain]
  refine derivesAt_bind (each cursor ended) fun left middle tokens passes derived => ?_
  apply derivesAt_budget
  exact derivesAt_chainFrom joins none each _ (passes.finish ▸ ended) (single derived)

end Chains

end Parser

end AgentSpeak.Source
