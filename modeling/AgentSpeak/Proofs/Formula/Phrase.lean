import AgentSpeak.Proofs.Formula.Accepting
import AgentSpeak.Proofs.Formula.Deriving
import AgentSpeak.Proofs.Source.Phrase

namespace AgentSpeak.Formula

open Source (Parser Phrase Trails Token finishOf scan spelled_scan significant_eq)

variable {text : String} {formula other : Formula}

theorem exists_phrase_of_read (done : read text = .ok formula) :
    ∃ other, Phrase Disjunction text other := by
  obtain ⟨tokens, _, spans, derivable⟩ := Parser.exists_of_read readsFrom_parse done
  obtain ⟨other, disjunction⟩ := derivable 0
  exact ⟨other, tokens, spans, disjunction⟩

/-- A formula that the tokens of a text make up is read but for the numbers of its wildcards. -/
theorem read_of_phrase (phrase : Phrase Disjunction text formula) :
    ∃ f : Nat → Nat, Function.Injective f ∧ read text = .ok (formula.rename (.renumber f)) := by
  obtain ⟨tokens, spans, disjunction⟩ := phrase
  obtain ⟨rest, trails, split, start⟩ := spans.start
  have stops : ∀ kind ∈ [Source.Kind.dot, .endOfInput], kind ∉ disjunctionCarriers := by decide
  have own : ∀ token ∈ tokens ++ rest, token ∈ scan .start text.toList := fun token member =>
    split ▸ member
  have followed : Followed disjunctionCarriers ((tokens ++ rest).length + 1) tokens rest
      (finishOf text) :=
    ⟨⟨rfl, fun token member => spelled_scan (own token member), spans.formed_tokens,
      Nat.lt_succ_self _⟩, (trails.edge text).2, stops _ (trails.edge text).1⟩
  obtain ⟨other, count, -, like, ran⟩ := disjunction.parsed followed 0
  obtain ⟨f, one, rfl⟩ := like.injective
  rw [← start] at ran
  exact ⟨f, one, Parser.read_of_run ran trails⟩

/-- The tokens of a text number the wildcards of any formula one after another from one. -/
theorem exists_numbers (phrase : Phrase Disjunction text formula) :
    ∃ count, numbers formula.vars = List.range' 1 count := by
  obtain ⟨tokens, -, disjunction⟩ := phrase
  exact ⟨_, disjunction.consecutive⟩

/-- The tokens of a text make up one formula at most. -/
theorem phrase_unique (first : Phrase Disjunction text formula)
    (second : Phrase Disjunction text other) : formula = other := by
  obtain ⟨f, -, done⟩ := read_of_phrase first
  obtain ⟨g, one, done'⟩ := read_of_phrase second
  obtain ⟨count, counted⟩ := exists_numbers first
  obtain ⟨count', counted'⟩ := exists_numbers second
  have same : formula.rename (.renumber f) = other.rename (.renumber g) :=
    Except.ok.inj (done.symm.trans done')
  have listed : (List.range' 1 count).map f = (List.range' 1 count').map g := by
    rw [← counted, ← counted', ← numbers_map_renumber, ← numbers_map_renumber, ← vars_rename,
      ← vars_rename, same]
  obtain rfl : count = count' := by
    simpa only [List.length_map, List.length_range'] using congrArg List.length listed
  rw [← counted, List.map_inj_left] at listed
  have agree : formula.rename (.renumber f) = formula.rename (.renumber g) :=
    rename_congr fun v member => Variable.renumber_congr fun n found =>
      listed n (mem_numbers.mpr (Variable.eq_wildcard_of_number? found ▸ member))
  exact rename_injective (Variable.renumber_injective one) (agree.symm.trans same)

/-- A text can be read as a formula just if its tokens make up one; then they make up no other, and
the one that is read has the same wildcards under other numbers at most. -/
theorem read_ok_iff_phrase (text : String) :
    ((∃ formula, read text = .ok formula) ↔ ∃ formula, Phrase Disjunction text formula) ∧
      (∀ formula other, Phrase Disjunction text formula → Phrase Disjunction text other →
        formula = other) ∧
      ∀ formula, Phrase Disjunction text formula →
        ∃ f : Nat → Nat, Function.Injective f ∧
          read text = .ok (formula.rename (.renumber f)) := by
  refine ⟨⟨?_, ?_⟩, ?_, ?_⟩
  · rintro ⟨formula, done⟩
    exact exists_phrase_of_read done
  · rintro ⟨formula, phrase⟩
    obtain ⟨f, -, done⟩ := read_of_phrase phrase
    exact ⟨_, done⟩
  · exact fun formula other first second => phrase_unique first second
  · exact fun formula phrase => read_of_phrase phrase

end AgentSpeak.Formula
