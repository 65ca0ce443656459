import AgentSpeak.Proofs.Term.Reading
import AgentSpeak.Proofs.Term.Spelling

namespace AgentSpeak

open Source (Token Lexeme)

/-- A token of a kind of names has the text of such a name. -/
def Term.Named (token : Token) : Prop :=
  token.kind ∈ Lexeme.nameKinds →
    isWord token.text = true ∧ Lexeme.nameKind token.text = token.kind

theorem Term.Named.spelled {token : Token} (named : Named token) : Spelled token := by
  have word : token.kind ∈ Lexeme.nameKinds → IsWord (String.ofList token.text) := by
    intro listed
    simpa [IsWord] using (named listed).1
  refine ⟨fun kind => word (by rw [kind]; decide), fun kind => ?_⟩
  have listed : token.kind ∈ Lexeme.nameKinds := by
    rw [kind]
    decide
  refine ⟨word listed, fun wild => ?_⟩
  have text : token.text = ['_'] := String.ofList_inj.mp wild
  have same := (named listed).2
  rw [text, kind] at same
  cases same

namespace Source

variable {text : List Char} {position : Position}

theorem named_firstToken (position : Position) (c : Char) (rest : List Char) :
    Term.Named (firstToken position c rest) := by
  intro listed
  obtain ⟨start, same⟩ := Lexeme.next_of_mem_nameKinds listed
  simp [firstToken, same, isWord, Lexeme.name, Lexeme.isNameRest_of_isNameStart start, start]

theorem named_lex {token : Token} (member : token ∈ lex position text) : Term.Named token := by
  induction text using lexing generalizing position with
  | nil => cases member
  | cons c rest ih =>
    rw [lex_cons, List.mem_cons] at member
    rcases member with rfl | later
    · exact named_firstToken position c rest
    · exact ih later

theorem named_scan {token : Token} (member : token ∈ scan position text) : Term.Named token :=
  named_lex (List.mem_of_mem_filter member)

theorem spelled_scan {token : Token} (member : token ∈ scan position text) : Term.Spelled token :=
  (named_scan member).spelled

end Source

namespace Term

open Source (Token Surroundings Cursor Detached scan visible edge finishOf)

variable {term value : Term} {text : String}

/-- The second term is the first one but for other numbers of wildcards. -/
def Renumbers (term other : Term) : Prop :=
  ∃ g : Nat → Nat, Function.Injective g ∧ other = term.rename (.renumber g)

/-- A term is read back from its own text. -/
def Survives (term : Term) : Prop :=
  ∃ other, Term.read term.render = .ok other ∧ term.Renumbers other

/-- What stands behind a text read by itself, and behind the same text inside another one. -/
def within (text : String) (position : Source.Position) (more : List Char) (finish : Token)
    (w : Nat) : Surroundings where
  rest := []
  other := scan (position.after text.toList) more
  finish := finishOf text
  last := finish
  distance := position.offset
  shift := w
  allowed := Spelled

/-- What follows a text carries on neither its last token nor a term. -/
structure Quiet (position : Source.Position) (more : List Char) (finish : Token) : Prop where
  detached : Detached more
  ends : (edge (scan position more) finish).kind.endsTerm = true
  formed : (edge (scan position more) finish).problem? = none

/-- What is read as a term from a tidy text by itself is read from it inside any other text. -/
theorem read_within (tidy : Source.Tidy text.toList) (done : Term.read text = .ok value)
    (position : Source.Position) (more : List Char) (finish : Token) (w : Nat)
    (quiet : Quiet (position.after text.toList) more finish) :
    ∃ count copy, parse (Source.Parser.start text) = (.ok value, ⟨[], finishOf text, count⟩) ∧
      parse ⟨scan position (text.toList ++ more), finish, w⟩ =
        (.ok copy, ⟨scan (position.after text.toList) more, finish, count + w⟩) ∧
      Copied w 0 count value copy := by
  let S := within text position more finish w
  have fit : S.Fit := ⟨rfl, quiet.ends, quiet.formed⟩
  have moved := Source.scan_moved (show position.offset = Source.Position.start.offset + S.distance
    from (Nat.zero_add _).symm) text.toList
  have paired := Surroundings.paired_of_moved moved fun token => Source.spelled_scan
  obtain ⟨outcome, left, count, ran, consumed, -, -, same⟩ :=
    reads_parse fit (fun _ own => own) _ 0 _ _ paired (Nat.lt_succ_self _)
  have first : S.first (scan .start text.toList) 0 = Source.Parser.start text := by
    rw [Source.start_eq, Surroundings.first]
    simp [S, within]
  obtain ⟨middle, after, alone, ended⟩ := Source.read_ok done
  rw [first, alone] at ran
  cases ran
  have none : left = [] := by
    obtain ⟨used, split, -⟩ := consumed
    have member : ∀ token ∈ left, token ∈ scan .start text.toList := fun token there => by
      rw [split]
      exact List.mem_append_right _ there
    rw [Surroundings.first, show S.rest = [] from rfl, List.append_nil] at ended
    rcases Source.finish_ok (fun token there => Source.no_endOfInput
      (List.mem_of_mem_filter (member token there))) ended with none | ⟨token, rfl, dot⟩
    · exact none
    · exact absurd dot (tidy.no_dot (member token (by simp)))
  subst none
  obtain ⟨outcome', left', again, behind, outcomes⟩ := same (.inl ⟨trivial, rfl⟩)
  cases behind
  cases outcomes with
  | @ok _ copy copied =>
    refine ⟨count, copy, alone, ?_, copied⟩
    rw [tidy.scan_append quiet.detached]
    simpa [Surroundings.second, S, within] using again

/-- The second term is the first one with other wildcards, numbered while the count of wildcards
went from one bound to another. -/
def Like (low high : Nat) (term other : Term) : Prop :=
  ∃ f : Nat → Nat, other = term.rename (.renumber f) ∧ Numbered low high other.vars

/-- A term that is read back from its own text is read from it inside any other text. -/
theorem Survives.read (survives : term.Survives) (legible : term.Legible)
    (position : Source.Position) (more : List Char) (finish : Token) (w : Nat)
    (quiet : Quiet (position.after term.render.toList) more finish) :
    ∃ other count, w ≤ count ∧ Like w count term other ∧
      parse ⟨scan position (term.render.toList ++ more), finish, w⟩ =
        (.ok other, ⟨scan (position.after term.render.toList) more, finish, count⟩) := by
  obtain ⟨value, done, g, -, renumbered⟩ := survives
  obtain ⟨count, copy, -, parsed, copied⟩ :=
    read_within legible.neat_render.1.tidy done position more finish w quiet
  refine ⟨copy, count + w, Nat.le_add_left w count, ⟨fun n => g n + w, ?_, ?_⟩, parsed⟩
  · rw [copied.same, renumbered, rename_rename]
    exact rename_congr fun v _ => Variable.renumber_renumber g (· + w) v
  · have numbered := copied.numbered.shift w
    rw [Nat.zero_add] at numbered
    rwa [copied.same, vars_rename]

end Term

end AgentSpeak
