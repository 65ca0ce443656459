import AgentSpeak.Proofs.Term.Numbering
import AgentSpeak.Term.Parser

namespace AgentSpeak

/-- A text that a name can be: letters, digits and underscores, of which the first is no digit. -/
def isWord : List Char → Bool
  | [] => false
  | c :: rest => Source.Lexeme.isNameStart c && rest.all Source.Lexeme.isNameRest

/-- A text that a name can be. -/
def IsWord (text : String) : Prop :=
  isWord text.toList = true

instance (text : String) : Decidable (IsWord text) :=
  inferInstanceAs (Decidable (_ = true))

theorem IsWord.ne {name other : String} (word : IsWord name)
    (noWord : ¬ IsWord other := by decide) : name ≠ other := by
  rintro rfl
  exact noWord word

namespace Term

theorem numberOf_read {token : Source.Token} {value : Number}
    (read : Number.read? token.text = some value) : numberOf token = pure (.number value) := by
  unfold numberOf
  split <;> simp_all

theorem numberOf_unread {token : Source.Token} (unread : Number.read? token.text = none) :
    numberOf token = throw ⟨.tooManyDigits, token, fun _ => unread⟩ := by
  unfold numberOf
  split <;> simp_all

/-- A term that the grammar can give. -/
inductive Legible : Term → Prop where
  | atom (name : String) (word : IsWord name) : Legible (.atom name)
  | nil : Legible nil
  | number (value : Number) : Legible (.number value)
  | string (value : String) : Legible (.string value)
  | var (v : Variable) (word : IsWord v.base) (written : v.IsWritten) : Legible (.var v)
  | call (functor : String) (arguments : List Term) (word : IsWord functor) (some : arguments ≠ [])
      (each : ∀ argument ∈ arguments, Legible argument) : Legible (.compound functor arguments)
  | pair (head tail : Term) (first : Legible head) (second : Legible tail) :
      Legible (cons head tail)
  | binary (operator : Operator) (left right : Term) (first : Legible left)
      (second : Legible right) : Legible (.compound operator.functor [left, right])
  | minus (operand : Term) (legible : Legible operand) : Legible (.compound "-" [operand])

theorem Legible.named {term : Term} (legible : term.Legible) :
    ∀ v ∈ term.vars, IsWord v.base ∧ v.IsWritten := by
  induction legible with
  | atom | nil | number | string => simp [Term.nil, vars]
  | var v word written => simpa using ⟨word, written⟩
  | call functor arguments word some each ih =>
    intro v member
    rw [vars_compound] at member
    obtain ⟨argument, present, occurs⟩ := List.mem_flatMap.mp member
    exact ih argument present v occurs
  | pair head tail first second ih ih' =>
    intro v member
    rw [cons, vars_compound] at member
    simp only [List.flatMap_cons, List.flatMap_nil, List.append_nil, List.mem_append] at member
    exact member.elim (ih v) (ih' v)
  | binary operator left right first second ih ih' =>
    intro v member
    simp only [vars_compound, List.flatMap_cons, List.flatMap_nil, List.append_nil,
      List.mem_append] at member
    exact member.elim (ih v) (ih' v)
  | minus operand legible ih =>
    intro v member
    simp only [vars_compound, List.flatMap_cons, List.flatMap_nil, List.append_nil] at member
    exact ih v member

theorem Legible.written {term : Term} (legible : term.Legible) :
    ∀ v ∈ term.vars, v.IsWritten :=
  fun v member => (legible.named v member).2

theorem legible_ofList {items : List Term} {tail : Term} (each : ∀ item ∈ items, item.Legible)
    (last : tail.Legible) : (ofList items tail).Legible := by
  induction items with
  | nil => exact last
  | cons item items ih =>
    exact .pair _ _ (each item (by simp)) (ih fun other member => each other (by simp [member]))

theorem vars_ofList (items : List Term) (tail : Term) :
    (ofList items tail).vars = items.flatMap vars ++ tail.vars := by
  induction items with
  | nil => rfl
  | cons item items ih =>
    show (cons item (ofList items tail)).vars = _
    simp [cons, ih]

theorem rename_ofList (π : Variable → Variable) (items : List Term) (tail : Term) :
    (ofList items tail).rename π = ofList (items.map (rename π)) (tail.rename π) := by
  induction items with
  | nil => rfl
  | cons item items ih =>
    show (cons item (ofList items tail)).rename π = cons (item.rename π) (ofList _ _)
    rw [← ih, cons, cons, rename_compound]
    rfl

/-- The second term is the first one, read after some more wildcards. The first one was read while
the count of wildcards went from one bound to another. -/
structure Copied (shift low high : Nat) (term copy : Term) : Prop where
  same : copy = term.rename (.renumber (· + shift))
  legible : term.Legible
  numbered : Numbered low high term.vars

/-- Copies of one term after another. -/
structure CopiedAll (shift low high : Nat) (terms copies : List Term) : Prop where
  same : copies = terms.map (rename (.renumber (· + shift)))
  legible : ∀ term ∈ terms, term.Legible
  numbered : Numbered low high (terms.flatMap vars)

section Copies

variable {shift low middle high : Nat} {term copy left right left' right' : Term}
  {terms copies : List Term}

theorem Copied.mono (copied : Copied shift low middle term copy) (later : middle ≤ high) :
    Copied shift low high term copy :=
  ⟨copied.same, copied.legible, copied.numbered.mono later⟩

/-- A term without variables is its own copy. -/
theorem copied_self (legible : term.Legible) (closed : term.vars = []) :
    Copied shift low high term term := by
  refine ⟨(rename_self ?_).symm, legible, ?_⟩
  · simp [closed]
  · rw [closed]
    exact numbered_nil low high

theorem copied_word {name : String} (word : IsWord name) :
    Copied shift low high (.atom name) (.atom name) :=
  copied_self (.atom name word) rfl

theorem copied_named {base : String} (word : IsWord base) (named : base ≠ "_") :
    Copied shift low high (.var ⟨base, []⟩) (.var ⟨base, []⟩) := by
  have unnumbered : Variable.number? ⟨base, []⟩ = none := rfl
  refine ⟨?_, .var _ word (.inl ⟨rfl, named⟩), ?_⟩
  · rw [rename_var, Variable.renumber_of_none unnumbered]
  · rw [vars_var]
    exact numbered_named unnumbered low high

theorem copied_wildcard (n : Nat) :
    Copied shift n (n + 1) (.var (.wildcard (n + 1))) (.var (.wildcard (n + shift + 1))) := by
  refine ⟨?_, .var _ (show IsWord "_" by decide) (.inr ⟨_, rfl⟩), ?_⟩
  · rw [rename_var, Variable.renumber_wildcard, Nat.add_right_comm]
  · rw [vars_var]
    exact numbered_wildcard n

theorem copiedAll_nil : CopiedAll shift low high [] [] :=
  ⟨rfl, by simp, numbered_nil low high⟩

theorem CopiedAll.mono (copied : CopiedAll shift low middle terms copies)
    (later : middle ≤ high) : CopiedAll shift low high terms copies :=
  ⟨copied.same, copied.legible, copied.numbered.mono later⟩

theorem Copied.cons (first : Copied shift low middle term copy)
    (rest : CopiedAll shift middle high terms copies) (lower : low ≤ middle)
    (upper : middle ≤ high) : CopiedAll shift low high (term :: terms) (copy :: copies) := by
  refine ⟨?_, ?_, ?_⟩
  · rw [List.map_cons, first.same, rest.same]
  · intro term' member
    rcases List.mem_cons.mp member with rfl | later
    · exact first.legible
    · exact rest.legible term' later
  · rw [List.flatMap_cons]
    exact first.numbered.append rest.numbered lower upper

theorem Copied.single (copied : Copied shift low high term copy) (lower : low ≤ high) :
    CopiedAll shift low high [term] [copy] :=
  copied.cons copiedAll_nil lower (Nat.le_refl high)

theorem CopiedAll.append {others others' : List Term}
    (first : CopiedAll shift low middle terms copies)
    (second : CopiedAll shift middle high others others') (lower : low ≤ middle)
    (upper : middle ≤ high) :
    CopiedAll shift low high (terms ++ others) (copies ++ others') := by
  refine ⟨?_, ?_, ?_⟩
  · rw [List.map_append, first.same, second.same]
  · intro term member
    exact (List.mem_append.mp member).elim (first.legible term) (second.legible term)
  · rw [List.flatMap_append]
    exact first.numbered.append second.numbered lower upper

/-- A compound term of terms with copies, of a functor that makes it a legible one. -/
theorem CopiedAll.compound {functor : String} (copied : CopiedAll shift low high terms copies)
    (legible : (Term.compound functor terms).Legible) :
    Copied shift low high (.compound functor terms) (.compound functor copies) := by
  refine ⟨?_, legible, ?_⟩
  · rw [rename_compound, copied.same]
  · rw [vars_compound]
    exact copied.numbered

theorem CopiedAll.literal {functor : String} (word : IsWord functor)
    (copied : CopiedAll shift low high terms copies) :
    Copied shift low high (literal functor terms) (literal functor copies) := by
  cases terms with
  | nil =>
    rw [copied.same]
    exact copied_word word
  | cons term rest =>
    have legible := Legible.call functor (term :: rest) word (by simp) copied.legible
    obtain rfl := copied.same
    exact copied.compound legible

theorem Copied.binary (operator : Operator) (first : Copied shift low middle left left')
    (second : Copied shift middle high right right') (lower : low ≤ middle)
    (upper : middle ≤ high) :
    Copied shift low high (.compound operator.functor [left, right])
      (.compound operator.functor [left', right']) :=
  (first.cons (second.single upper) lower upper).compound
    (.binary operator left right first.legible second.legible)

theorem Copied.negate (copied : Copied shift low high term copy) (lower : low ≤ high) :
    Copied shift low high term.negate copy.negate := by
  have whole := copied.single lower
  rw [copied.same] at whole ⊢
  cases term with
  | number value =>
    rw [rename_number]
    exact copied_self (.number value.neg) rfl
  | _ =>
    first
    | rw [rename_atom] at whole ⊢
    | rw [rename_string] at whole ⊢
    | rw [rename_var] at whole ⊢
    | rw [rename_compound] at whole ⊢
    exact whole.compound (.minus _ copied.legible)

theorem CopiedAll.list {tail tail' : Term} (items : CopiedAll shift low middle terms copies)
    (rest : Copied shift middle high tail tail') (lower : low ≤ middle) (upper : middle ≤ high) :
    Copied shift low high (ofList terms tail) (ofList copies tail') := by
  refine ⟨?_, legible_ofList items.legible rest.legible, ?_⟩
  · rw [items.same, rest.same, rename_ofList]
  · rw [vars_ofList]
    exact items.numbered.append rest.numbered lower upper

end Copies

end Term

end AgentSpeak
