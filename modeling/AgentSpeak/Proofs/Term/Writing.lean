import AgentSpeak.Proofs.Term.Deriving
import AgentSpeak.Proofs.Term.Spelling

namespace AgentSpeak

open Source (Token Kind Position Lexeme Tidy Neat Detached scan wildcards separates
  wildcards_append wildcards_cons_of_ne)

namespace Source

/-- A text that is one token of a kind, but for spaces, wherever it stands. -/
structure Sign (kind : Kind) (sign : List Char) : Prop where
  apart : ∃ c rest, sign = c :: rest ∧ separates c = true
  tidy : ∀ {more}, Tidy more → Tidy (sign ++ more)
  scanned : ∀ position more, ∃ token : Token, token.kind = kind ∧
    scan position (sign ++ more) = token :: scan (position.after sign) more

variable {kind : Kind} {sign text more : List Char}

theorem Sign.detached (known : Sign kind sign) (more : List Char) : Detached (sign ++ more) := by
  obtain ⟨c, rest, rfl, separates⟩ := known.apart
  exact detached_cons separates _

theorem Sign.neat (known : Sign kind sign) (tidy : Tidy more) : Neat (sign ++ more) := by
  refine ⟨known.tidy tidy, ?_, ?_⟩ <;> obtain ⟨c, rest, rfl, separates⟩ := known.apart
  · simp
  · rintro ⟨⟩
    exact absurd separates (by decide)

theorem sign_punctuation {c : Char} (listed : (c, kind) ∈ punctuation) : Sign kind [c] where
  apart := by
    have each : ∀ entry ∈ punctuation, separates entry.1 = true := by decide
    exact ⟨c, [], rfl, each (c, kind) listed⟩
  tidy tidy := tidy.punctuation listed
  scanned position more := ⟨_, rfl, scan_punctuation listed position more⟩

/-- A sign with a space behind it. -/
theorem Sign.spaced (known : Sign kind sign) : Sign kind (sign ++ [' ']) where
  apart := by
    obtain ⟨c, rest, rfl, separates⟩ := known.apart
    exact ⟨c, rest ++ [' '], rfl, separates⟩
  tidy tidy := by
    rw [List.append_assoc]
    exact known.tidy tidy.space
  scanned position more := by
    obtain ⟨token, same, tokens⟩ := known.scanned position (' ' :: more)
    refine ⟨token, same, ?_⟩
    rw [List.append_assoc, List.singleton_append, tokens, scan_blank (by decide),
      Position.after_append]
    rfl

/-- A sign with a space before it. -/
theorem Sign.offset (known : Sign kind sign) : Sign kind (' ' :: sign) where
  apart := ⟨' ', sign, rfl, by decide⟩
  tidy tidy := (known.tidy tidy).space
  scanned position more := by
    obtain ⟨token, same, tokens⟩ := known.scanned (position.next ' ') more
    refine ⟨token, same, ?_⟩
    rw [List.cons_append, scan_blank (by decide), tokens]
    rfl

end Source

namespace Term

open Source (Sign)

variable {α β γ : Type} {derives : Nat → List Token → α → Prop}
  {derives' : Nat → List Token → β → Prop} {derives'' : Nat → List Token → γ → Prop}
  {low middle high : Nat} {text more sign : List Char} {kind : Kind} {left : α} {right : β}
  {whole : γ}

/-- Wherever a text stands, its tokens make up a value, and between two counts just their wildcards
are counted. -/
structure Spells {α : Type} (derives : Nat → List Token → α → Prop) (low high : Nat)
    (text : List Char) (value : α) : Prop where
  neat : Neat text
  counted : ∀ position, Counted derives low high (scan position text) value

theorem Spells.mono {value : α} {other : β} (spells : Spells derives low high text value)
    (more : ∀ tokens, derives low tokens value → derives' low tokens other) :
    Spells derives' low high text other :=
  ⟨spells.neat, fun position =>
    let ⟨count, derivation⟩ := spells.counted position
    ⟨count, more _ derivation⟩⟩

/-- A text that is one token. -/
theorem spells_token {c : Char} {rest : List Char} {value : α}
    (next : Lexeme.next c rest = ⟨kind, c :: rest, [], true⟩) (neat : Neat (c :: rest))
    (seen : kind.isTrivia = false)
    (each : ∀ token : Token, token.kind = kind → token.text = c :: rest →
      Counted derives low high [token] value) :
    Spells derives low high (c :: rest) value := by
  refine ⟨neat, fun position => ?_⟩
  rw [Source.scan_token next seen]
  exact each _ rfl rfl

/-- The texts of two phrases after each other. -/
theorem Spells.append (first : Spells derives low middle text left)
    (second : Spells derives' middle high more right) (detached : Detached more)
    (join : ∀ before after, derives low before left →
      derives' (low + wildcards before) after right → derives'' low (before ++ after) whole) :
    Spells derives'' low high (text ++ more) whole := by
  refine ⟨first.neat.append second.neat.tidy detached, fun position => ?_⟩
  obtain ⟨count, before⟩ := first.counted position
  obtain ⟨count', after⟩ := second.counted (position.after text)
  rw [first.neat.tidy.scan_append detached]
  refine ⟨?_, join _ _ before (count ▸ after)⟩
  rw [wildcards_append, ← Nat.add_assoc, ← count]
  exact count'

/-- The text of a phrase behind one more token. -/
theorem Spells.behind {full : List Char} (inner : Spells derives low high text left)
    (neat : Neat full) (scanned : ∀ position, ∃ (token : Token) (place : Position),
      token.kind = kind ∧ scan position full = token :: scan place text)
    (solid : kind ≠ .wildcard)
    (begin : ∀ (token : Token) tokens, token.kind = kind → derives low tokens left →
      derives'' low (token :: tokens) whole) : Spells derives'' low high full whole := by
  refine ⟨neat, fun position => ?_⟩
  obtain ⟨token, place, same, tokens⟩ := scanned position
  obtain ⟨count, derivation⟩ := inner.counted place
  rw [tokens]
  refine ⟨?_, begin token _ same derivation⟩
  rw [wildcards_cons_of_ne (same ▸ solid)]
  exact count

theorem Spells.begun (inner : Spells derives low high text left) (known : Sign kind sign)
    (solid : kind ≠ .wildcard)
    (begin : ∀ (token : Token) tokens, token.kind = kind → derives low tokens left →
      derives'' low (token :: tokens) whole) : Spells derives'' low high (sign ++ text) whole := by
  refine inner.behind (known.neat inner.neat.tidy) (fun position => ?_) solid begin
  obtain ⟨token, same, tokens⟩ := known.scanned position text
  exact ⟨token, _, same, tokens⟩

theorem Spells.ended (inner : Spells derives low high text left) (known : Sign kind sign)
    (solid : kind ≠ .wildcard)
    (finish : ∀ (token : Token) tokens, token.kind = kind → derives low tokens left →
      derives'' low (tokens ++ [token]) whole) : Spells derives'' low high (text ++ sign) whole := by
  have closing : Spells (fun _ tokens (_ : Unit) => ∃ token : Token, token.kind = kind ∧
      tokens = [token]) high high sign () := by
    refine ⟨by simpa using known.neat Source.tidy_nil, fun position => ?_⟩
    obtain ⟨token, same, tokens⟩ := known.scanned position []
    rw [List.append_nil] at tokens
    rw [tokens]
    exact ⟨(wildcards_cons_of_ne (same ▸ solid) []).symm ▸ rfl, token, same, rfl⟩
  refine inner.append closing (by simpa using known.detached []) ?_
  rintro before after first ⟨token, same, rfl⟩
  exact finish token before same first

/-- The text of a phrase between two signs. -/
theorem Spells.enclosed {kind' : Kind} {sign' : List Char}
    (inner : Spells derives low high text left) (opening : Sign kind sign)
    (closing : Sign kind' sign') (solid : kind ≠ .wildcard) (solid' : kind' ≠ .wildcard)
    (enclose : ∀ (token token' : Token) tokens, token.kind = kind → token'.kind = kind' →
      derives low tokens left → derives'' low (token :: (tokens ++ [token'])) whole) :
    Spells derives'' low high (sign ++ (text ++ sign')) whole := by
  have ended : Spells (fun w tokens value => ∃ (inside : List Token) (token : Token),
      tokens = inside ++ [token] ∧ token.kind = kind' ∧ derives w inside value) low high
      (text ++ sign') left :=
    inner.ended closing solid' fun token tokens same derivation =>
      ⟨tokens, token, rfl, same, derivation⟩
  refine ended.begun opening solid ?_
  rintro token _ same ⟨inside, token', rfl, same', derivation⟩
  exact enclose token token' inside same same' derivation

/-- The texts of two phrases with a sign between them. -/
theorem Spells.joined (first : Spells derives low middle text left)
    (second : Spells derives' middle high more right) (known : Sign kind sign)
    (solid : kind ≠ .wildcard)
    (join : ∀ (token : Token) before after, token.kind = kind → derives low before left →
      derives' (low + wildcards before) after right →
      derives'' low (before ++ token :: after) whole) :
    Spells derives'' low high (text ++ (sign ++ more)) whole := by
  have behind : Spells (fun w tokens value => ∃ (token : Token) (rest : List Token),
      tokens = token :: rest ∧ token.kind = kind ∧ derives' w rest value) middle high
      (sign ++ more) right :=
    second.begun known solid fun token tokens same derivation =>
      ⟨token, tokens, rfl, same, derivation⟩
  refine first.append behind (known.detached more) ?_
  rintro before after derivation ⟨token, rest, rfl, same, derivation'⟩
  exact join token before rest same derivation derivation'

end Term

end AgentSpeak
