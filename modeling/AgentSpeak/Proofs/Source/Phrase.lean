import AgentSpeak.Proofs.Source.Deriving
import AgentSpeak.Proofs.Source.Lexing

namespace AgentSpeak.Source

variable {α : Type} {text : String} {tokens rest : List Token} {value : α}

/-- Tokens are all those of a text that a grammar sees, but for a full stop at the end, and none of
them is malformed. -/
structure Spans (tokens : List Token) (text : String) : Prop where
  formed : ∀ token ∈ (tokenize text).significant.tokens, token.problem? = none
  whole : (tokenize text).significant.tokens = tokens ∨
    ∃ dot : Token, dot.kind = .dot ∧ (tokenize text).significant.tokens = tokens ++ [dot]

/-- The tokens of a text make up a value. -/
def Phrase (derives : Nat → List Token → α → Prop) (text : String) (value : α) : Prop :=
  ∃ tokens, Spans tokens text ∧ derives 0 tokens value

/-- What may stand behind a phrase: nothing or a full stop. -/
def Trails (rest : List Token) : Prop :=
  rest = [] ∨ ∃ dot : Token, dot.kind = .dot ∧ rest = [dot]

theorem Trails.edge (trails : Trails rest) (text : String) :
    (edge rest (finishOf text)).kind ∈ [Kind.dot, .endOfInput] ∧
      (edge rest (finishOf text)).problem? = none := by
  rcases trails with rfl | ⟨dot, kind, rfl⟩
  · refine ⟨?_, rfl⟩
    show Kind.endOfInput ∈ _
    decide
  · refine ⟨?_, formed_of_kind kind (by decide)⟩
    show dot.kind ∈ _
    rw [kind]
    decide

theorem significant_eq (text : String) :
    (tokenize text).significant.tokens = scan .start text.toList :=
  congrArg Cursor.upcoming (start_eq text)

theorem Spans.start (spans : Spans tokens text) :
    ∃ rest, Trails rest ∧ scan .start text.toList = tokens ++ rest ∧
      Parser.start text = ⟨tokens ++ rest, finishOf text, 0⟩ := by
  have start := start_eq text
  rw [← significant_eq] at start ⊢
  rcases spans.whole with whole | ⟨dot, kind, whole⟩
  · exact ⟨[], .inl rfl, by rw [whole, List.append_nil], by rw [start, whole, List.append_nil]⟩
  · exact ⟨[dot], .inr ⟨dot, kind, rfl⟩, whole, by rw [start, whole]⟩

theorem Spans.formed_tokens (spans : Spans tokens text) :
    ∀ token ∈ tokens, token.problem? = none := by
  obtain ⟨rest, -, whole, -⟩ := spans.start
  intro token member
  refine spans.formed token ?_
  rw [significant_eq, whole]
  exact List.mem_append_left rest member

namespace Parser

variable {parser : Parser α} {w : Nat}

/-- A parser that leaves nothing of a text but perhaps a full stop reads it. -/
theorem read_of_run (ran : parser (start text) = (.ok value, ⟨rest, finishOf text, w⟩))
    (trails : Trails rest) : parser.read text = .ok value := by
  have last : finish ⟨[], finishOf text, w⟩ = (.ok (), ⟨[], finishOf text, w⟩) := rfl
  have ended : finish ⟨rest, finishOf text, w⟩ = (.ok (), ⟨[], finishOf text, w⟩) := by
    rcases trails with rfl | ⟨dot, kind, rfl⟩
    · exact last
    · have formed : (Cursor.mk [dot] (finishOf text) w).token.problem? = none :=
        formed_of_kind kind (by decide)
      rw [finish, run_then (run_accept_true formed kind)]
      rfl
  rw [Parser.read, run_then ran, run_then ended]
  rfl

/-- What is read as a value spans the text. -/
theorem exists_of_read {derives : Nat → Nat → List Token → α → Prop}
    (each : Derives derives parser) (done : parser.read text = .ok value) :
    ∃ tokens count, Spans tokens text ∧ derives 0 count tokens value := by
  obtain ⟨middle, after, ran, ended⟩ := read_ok done
  have start := start_eq text
  rw [start] at ran
  obtain ⟨tokens, passes, derived⟩ := each _ rfl value middle ran
  have split : scan .start text.toList = tokens ++ middle.upcoming := passes.split
  have inside : ∀ token ∈ middle.upcoming, token.kind ≠ .endOfInput := by
    intro token member
    have own : token ∈ scan .start text.toList := split ▸ List.mem_append_right tokens member
    exact no_endOfInput (List.mem_of_mem_filter own)
  refine ⟨tokens, middle.wildcards, ?_, derived⟩
  rw [← significant_eq] at split
  rcases finish_ok inside ended with none | ⟨dot, one, kind⟩
  · rw [none, List.append_nil] at split
    exact ⟨split ▸ passes.formed, .inl split⟩
  · rw [one] at split
    refine ⟨fun token member => ?_, .inr ⟨dot, kind, split⟩⟩
    rw [split, List.mem_append, List.mem_singleton] at member
    exact member.elim (passes.formed token) fun same => same ▸ formed_of_kind kind (by decide)

end Parser

end AgentSpeak.Source
