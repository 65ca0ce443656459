import AgentSpeak.Proofs.Number.Spelling
import AgentSpeak.Proofs.Term.Legible

namespace AgentSpeak

theorem Operator.functor_of_ofFunctor? {functor : String} {operator : Operator}
    (found : ofFunctor? functor = some operator) : functor = operator.functor := by
  unfold ofFunctor? at found
  repeat' split at found
  all_goals cases found
  all_goals assumption

/-- The kind of an operator's token. -/
def Operator.kind : Operator → Source.Kind
  | add => .plus
  | sub => .minus
  | mul => .star
  | quotient => .slash
  | floorQuotient => .divWord
  | modulo => .modWord
  | power => .power

namespace Term

open Source (Lexeme Tidy Neat Detached Kind)

/-- The inside of a string's text is read up to its closing quote. -/
theorem stringTail?_escaped (text more : List Char) :
    Lexeme.stringTail? (text.flatMap escapeChar ++ '"' :: more) =
      some (text.flatMap escapeChar ++ ['"'], more, true) := by
  induction text with
  | nil => rfl
  | cons c text ih =>
    have escaped : ∀ d, d ≠ '\n' →
        Lexeme.stringTail? ('\\' :: d :: (text.flatMap escapeChar ++ '"' :: more)) =
          some ('\\' :: d :: (text.flatMap escapeChar ++ ['"']), more, true) := by
      intro d other
      rw [Lexeme.stringTail?, if_neg other, ih]
      rfl
    rw [List.flatMap_cons, List.append_assoc, List.append_assoc]
    rw [escapeChar.eq_1 c]
    split
    next => exact escaped '\\' (by decide)
    next noBackslash =>
      split
      next => exact escaped '"' (by decide)
      next noQuote =>
        split
        next => exact escaped 'n' (by decide)
        next noLine =>
          rw [List.cons_append, List.nil_append, Lexeme.stringTail?.eq_6 c _ noQuote noLine
            (fun same => absurd same noBackslash) fun _ _ same => absurd same noBackslash, ih]
          rfl

/-- The text of a string is one token. -/
theorem next_string (value : String) :
    Lexeme.next '"' (value.toList.flatMap escapeChar ++ ['"']) =
      ⟨.string, '"' :: (value.toList.flatMap escapeChar ++ ['"']), [], true⟩ := by
  show Lexeme.quote _ = _
  rw [Lexeme.quote, stringTail?_escaped]

theorem neat_renderString (value : String) : Neat (renderString value).toList := by
  rw [renderString, String.toList_ofList]
  exact ⟨Source.tidy_nil.token (next_string value) (by decide), by simp, by simp⟩

theorem first_word {name : String} (word : IsWord name) :
    ∃ c rest, name.toList = c :: rest ∧ Lexeme.isNameStart c = true ∧
      rest.all Lexeme.isNameRest = true := by
  unfold IsWord isWord at word
  split at word
  next => cases word
  next c rest text =>
    rw [Bool.and_eq_true] at word
    exact ⟨c, rest, text, word⟩

theorem neat_word {name : String} (word : IsWord name) : Neat name.toList := by
  obtain ⟨c, rest, text, start, others⟩ := first_word word
  rw [text]
  refine ⟨Source.tidy_word start others, by simp, ?_⟩
  rintro ⟨⟩
  exact absurd start (by decide)

theorem next_functor (operator : Operator) :
    ∃ c rest, operator.functor.toList = c :: rest ∧
      Lexeme.next c rest = ⟨operator.kind, c :: rest, [], true⟩ := by
  cases operator with
  | add => exact ⟨'+', [], rfl, rfl⟩
  | sub => exact ⟨'-', [], rfl, rfl⟩
  | mul => exact ⟨'*', [], rfl, rfl⟩
  | quotient => exact ⟨'/', [], rfl, rfl⟩
  | floorQuotient => exact ⟨'d', ['i', 'v'], rfl, rfl⟩
  | modulo => exact ⟨'m', ['o', 'd'], rfl, rfl⟩
  | power => exact ⟨'*', ['*'], rfl, rfl⟩

theorem tidy_functor (operator : Operator) : Tidy operator.functor.toList := by
  obtain ⟨c, rest, text, next⟩ := next_functor operator
  rw [text]
  exact Source.tidy_nil.token next (by cases operator <;> decide)

theorem tidy_closing {c : Char} {kind : Kind} (listed : (c, kind) ∈ Source.punctuation) :
    Tidy [c] :=
  Source.tidy_nil.punctuation listed

theorem Neat.parenthesized {text : List Char} (neat : Neat text) :
    Neat ('(' :: (text ++ [')'])) := by
  have closing := tidy_closing (show (')', Kind.closeParen) ∈ Source.punctuation by decide)
  have inner := neat.tidy.append closing (Source.detached_cons (by decide) [])
  exact ⟨inner.punctuation (show ('(', Kind.openParen) ∈ Source.punctuation by decide), by simp,
    by simp⟩

variable {left right : Term} {text : String}

theorem neat_renderOperand (place : Nat) (operand : Term) (neat : Neat text.toList) :
    Neat (renderOperand place operand text).toList := by
  unfold renderOperand
  split
  · split
    · simpa using Neat.parenthesized neat
    · exact neat
  · exact neat

theorem tidy_comma {text : List Char} (tidy : Tidy text) : Tidy (',' :: ' ' :: text) :=
  (tidy.blank (by decide)).punctuation (show (',', Kind.comma) ∈ Source.punctuation by decide)

/-- Texts with commas between them. -/
theorem tidy_intercalate {texts : List (List Char)} (each : ∀ text ∈ texts, Tidy text) :
    Tidy ([',', ' '].intercalate texts) := by
  induction texts with
  | nil => exact Source.tidy_nil
  | cons text texts ih =>
    have others := ih fun other member => each other (by simp [member])
    cases texts with
    | nil => simpa using each text
    | cons next texts =>
      rw [List.intercalate_cons_cons]
      rw [List.append_assoc]
      exact (each text (by simp)).append (tidy_comma others) (Source.detached_cons (by decide) _)

theorem neat_call {functor : String} (word : IsWord functor) {texts : List String}
    (each : ∀ text ∈ texts, Tidy text.toList) :
    Neat (functor ++ "(" ++ ", ".intercalate texts ++ ")").toList := by
  have closing := tidy_closing (show (')', Kind.closeParen) ∈ Source.punctuation by decide)
  have inside : Tidy ([',', ' '].intercalate (texts.map String.toList)) := by
    refine tidy_intercalate fun text member => ?_
    obtain ⟨text, present, rfl⟩ := List.mem_map.mp member
    exact each text present
  have arguments := inside.append closing (Source.detached_cons (by decide) [])
  have opened := arguments.punctuation (show ('(', Kind.openParen) ∈ Source.punctuation by decide)
  have name := neat_word word
  have text : (functor ++ "(" ++ ", ".intercalate texts ++ ")").toList =
      functor.toList ++ '(' :: ([',', ' '].intercalate (texts.map String.toList) ++ [')']) := by
    simp [String.toList_intercalate]
  rw [text]
  exact name.append opened (Source.detached_cons (by decide) _)

/-- The text of a compound term that is no list. -/
theorem neat_renderCompound {functor : String} {arguments : List Term} {texts : List String}
    (word : IsWord functor ∨ (∃ operator : Operator, functor = operator.functor ∧
      arguments.length = 2) ∨ functor = "-" ∧ arguments.length = 1)
    (same : texts.length = arguments.length) (each : ∀ text ∈ texts, Neat text.toList) :
    Neat (renderCompound functor arguments texts).toList := by
  unfold renderCompound
  split
  next left right leftText rightText operator found =>
    have known := Operator.functor_of_ofFunctor? found
    have first := neat_renderOperand operator.precedence left (each leftText (by simp))
    have second := neat_renderOperand (operator.precedence + 1) right (each rightText (by simp))
    simpa [known] using first.between (tidy_functor operator) second
  next operand text found =>
    simpa using (neat_renderOperand 4 operand (each text (by simp))).minus
  next other noMinus =>
    rcases word with word | ⟨operator, rfl, two⟩ | ⟨rfl, one⟩
    · exact neat_call word fun text member => (each text member).tidy
    · obtain ⟨left, right, rfl⟩ := List.length_eq_two.mp two
      obtain ⟨leftText, rightText, rfl⟩ := List.length_eq_two.mp same
      exact absurd (Operator.ofFunctor?_functor operator)
        (other left right leftText rightText _ rfl rfl)
    · obtain ⟨operand, rfl⟩ := List.length_eq_one_iff.mp one
      obtain ⟨text, rfl⟩ := List.length_eq_one_iff.mp same
      exact absurd rfl (noMinus operand text rfl rfl)

theorem length_renderAll (terms : List Term) : (renderAll terms).length = terms.length := by
  induction terms with
  | nil => rfl
  | cons term terms ih => rw [renderAll, List.length_cons, List.length_cons, ih]

theorem mem_renderAll {terms : List Term} {text : String} (member : text ∈ renderAll terms) :
    ∃ term ∈ terms, text = term.render := by
  induction terms with
  | nil => cases member
  | cons term terms ih =>
    rcases List.mem_cons.mp member with same | later
    · exact ⟨term, by simp, same⟩
    · obtain ⟨other, inside, same⟩ := ih later
      exact ⟨other, by simp [inside], same⟩

/-- What follows the first item of a list up to its closing bracket. -/
def TailTidy (tail : Term) : Prop :=
  Tidy ((renderTail tail).toList ++ [']']) ∧ Detached ((renderTail tail).toList ++ [']'])

/-- A tail that is no list is shown behind a bar. -/
theorem tailTidy_bar {tail : Term} (bar : renderTail tail = " | " ++ tail.render)
    (neat : Neat tail.render.toList) : TailTidy tail := by
  have closing := tidy_closing (show (']', Kind.closeBracket) ∈ Source.punctuation by decide)
  have inner := neat.tidy.append closing (Source.detached_cons (by decide) [])
  have text : (renderTail tail).toList ++ [']'] =
      ' ' :: '|' :: ' ' :: (tail.render.toList ++ [']']) := by simp [bar]
  rw [TailTidy, text]
  have opened := (inner.blank (c := ' ') (by decide)).punctuation
    (show ('|', Kind.bar) ∈ Source.punctuation by decide)
  exact ⟨opened.blank (by decide), Source.detached_cons (by decide) _⟩

theorem tailTidy_comma {head tail : Term}
    (comma : renderTail (cons head tail) = ", " ++ head.render ++ renderTail tail)
    (neat : Neat head.render.toList) (tidy : TailTidy tail) : TailTidy (cons head tail) := by
  have inner := neat.tidy.append tidy.1 tidy.2
  have text : (renderTail (cons head tail)).toList ++ [']'] =
      ',' :: ' ' :: (head.render.toList ++ ((renderTail tail).toList ++ [']'])) := by simp [comma]
  rw [TailTidy, text]
  exact ⟨tidy_comma inner, Source.detached_cons (by decide) _⟩

theorem neat_list {head tail : Term} (neat : Neat head.render.toList) (tidy : TailTidy tail) :
    Neat (cons head tail).render.toList := by
  have inner := neat.tidy.append tidy.1 tidy.2
  have text : (cons head tail).render.toList =
      '[' :: (head.render.toList ++ ((renderTail tail).toList ++ [']'])) := by
    simp [cons, render]
  rw [text]
  exact ⟨inner.punctuation (show ('[', Kind.openBracket) ∈ Source.punctuation by decide), by simp,
    by simp⟩

section Compounds

variable {functor : String} {arguments : List Term} (noPair : functor ≠ ".")

include noPair

theorem render_compound : (compound functor arguments).render =
    renderCompound functor arguments (renderAll arguments) := by
  simp [render, noPair]

theorem renderTail_compound :
    renderTail (compound functor arguments) = " | " ++ (compound functor arguments).render := by
  rw [render_compound noPair]
  simp [renderTail, noPair]

/-- A compound term that is no pair. -/
theorem neat_compound
    (word : IsWord functor ∨ (∃ operator : Operator, functor = operator.functor ∧
      arguments.length = 2) ∨ functor = "-" ∧ arguments.length = 1)
    (each : ∀ argument ∈ arguments, Neat argument.render.toList) :
    Neat (compound functor arguments).render.toList ∧ TailTidy (compound functor arguments) := by
  have neat : Neat (compound functor arguments).render.toList := by
    rw [render_compound noPair]
    refine neat_renderCompound word (length_renderAll arguments) fun text member => ?_
    obtain ⟨argument, inside, rfl⟩ := mem_renderAll member
    exact each argument inside
  exact ⟨neat, tailTidy_bar (renderTail_compound noPair) neat⟩

end Compounds

/-- Every legible term has a text without comments and full stops. -/
theorem Legible.neat_render {term : Term} (legible : term.Legible) :
    Neat term.render.toList ∧ TailTidy term := by
  induction legible with
  | atom name word =>
    have other : name ≠ "[]" := word.ne
    exact ⟨neat_word word, tailTidy_bar (by simp [renderTail, other, render]) (neat_word word)⟩
  | nil =>
    have closing := tidy_closing (show (']', Kind.closeBracket) ∈ Source.punctuation by decide)
    exact ⟨⟨closing.punctuation (show ('[', Kind.openBracket) ∈ Source.punctuation by decide),
      by decide, by decide⟩, closing, Source.detached_cons (by decide) []⟩
  | number value =>
    exact ⟨value.neat_render, tailTidy_bar rfl value.neat_render⟩
  | string value =>
    exact ⟨neat_renderString value, tailTidy_bar rfl (neat_renderString value)⟩
  | var v word written =>
    exact ⟨neat_word word, tailTidy_bar rfl (neat_word word)⟩
  | call functor arguments word some each ih =>
    exact neat_compound word.ne (.inl word) fun argument member => (ih argument member).1
  | pair head tail first second ih ih' =>
    exact ⟨neat_list ih.1 ih'.2, tailTidy_comma (by simp [cons, renderTail]) ih.1 ih'.2⟩
  | binary operator left right first second ih ih' =>
    refine neat_compound ?_ (.inr (.inl ⟨operator, rfl, rfl⟩)) ?_
    · cases operator <;> decide
    · simpa using ⟨ih.1, ih'.1⟩
  | minus operand legible ih =>
    refine neat_compound (by decide) (.inr (.inr ⟨rfl, rfl⟩)) ?_
    simpa using ih.1

end Term

end AgentSpeak
