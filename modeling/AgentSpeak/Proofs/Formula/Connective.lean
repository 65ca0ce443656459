import AgentSpeak.Formula.Printer
import AgentSpeak.Proofs.Formula.Legible
import AgentSpeak.Proofs.Formula.Reassociation
import AgentSpeak.Proofs.Term.Spelling
import AgentSpeak.Proofs.Term.Survival

namespace AgentSpeak

namespace Relation

/-- A relation that the grammar can give, and its symbol as a token. -/
theorem scan_symbol {relation : Relation} {kind : Source.Kind}
    (known : Formula.relation? kind = some relation) (position : Source.Position) :
    Source.visible position relation.symbol.toList =
      [⟨kind, relation.symbol.toList, position, true⟩] := by
  unfold Formula.relation? at known
  split at known <;> cases known <;> rfl

end Relation

namespace Formula

open Source (Tidy Neat Detached Kind)

variable {formula : Formula}

theorem tidy_symbol {relation : Relation} (known : ∃ kind, relation? kind = some relation) :
    Tidy relation.symbol.toList := by
  obtain ⟨kind, known⟩ := known
  intro position token member
  rw [Relation.scan_symbol known, List.mem_singleton] at member
  subst member
  unfold relation? at known
  split at known <;> cases known <;> exact ⟨rfl, nofun, nofun, nofun⟩

theorem neat_parenthesizedIf (condition : Bool) {text : String} (neat : Neat text.toList) :
    Neat (parenthesizedIf condition text).toList := by
  unfold parenthesizedIf
  split
  · simpa using Term.Neat.parenthesized neat
  · exact neat

/-- Every legible formula has a text without comments and full stops. -/
theorem Legible.neat_render (legible : formula.Legible) : Neat formula.render.toList := by
  have ampersand := Term.tidy_closing (show ('&', Kind.ampersand) ∈ Source.punctuation by decide)
  have bar := Term.tidy_closing (show ('|', Kind.bar) ∈ Source.punctuation by decide)
  induction legible with
  | literal term legible plain => exact legible.neat_render.1
  | negation formula legible ih =>
    have inner := neat_parenthesizedIf formula.isCompound ih
    have word : Neat ['n', 'o', 't'] :=
      ⟨Source.tidy_word (by decide) (by decide), by decide, by decide⟩
    simpa [render] using word.append inner.tidy.space (Source.detached_space _)
  | conjunction left right first second ih ih' =>
    simpa [render] using Neat.between (neat_parenthesizedIf left.isDisjunction ih) ampersand
      (neat_parenthesizedIf right.isDisjunction ih')
  | disjunction left right first second ih ih' =>
    simpa [render] using Neat.between ih bar ih'
  | comparison relation left right known first second =>
    simpa [render] using Neat.between first.neat_render.1 (tidy_symbol known) second.neat_render.1

end Formula

end AgentSpeak

namespace AgentSpeak.Formula

open Source (Parser Kind Token Cursor Position Tidy Neat Detached scan edge)
open Source.Parser

/-- The second formula is the first one with other wildcards, numbered while the count of wildcards
went from one bound to another. -/
def Like (low high : Nat) (formula other : Formula) : Prop :=
  ∃ f : Nat → Nat, other = formula.rename (.renumber f) ∧ Numbered low high other.vars

theorem Like.above {low middle high : Nat} {formula other : Formula}
    (like : Like middle high formula other) (lower : low ≤ middle) : Like low high formula other := by
  obtain ⟨f, same, numbered⟩ := like
  exact ⟨f, same, numbered.above lower⟩

/-- Like formulas are the same but for a one-to-one change of the numbers of wildcards. -/
theorem Like.injective {low high : Nat} {formula other : Formula}
    (like : Like low high formula other) :
    ∃ g : Nat → Nat, Function.Injective g ∧ other = formula.rename (.renumber g) := by
  obtain ⟨f, rfl, numbered⟩ := like
  rw [vars_rename] at numbered
  have apart := numbered.rising.imp Nat.ne_of_lt
  have bounded : ∀ n ∈ numbers formula.vars, f n ≤ high := fun n member =>
    (numbered.range (f n) (by
      rw [numbers_map_renumber]
      exact List.mem_map_of_mem member)).2
  rw [numbers_map_renumber] at apart
  obtain ⟨g, one, same⟩ := exists_injective apart bounded
  exact ⟨g, one, (rename_congr same).symm⟩

/-- Formulas put together of like ones are alike, where no wildcard is in both parts. -/
theorem like_joined {join : Formula → Formula → Formula}
    (rename : ∀ π left right,
      (join left right).rename π = join (left.rename π) (right.rename π))
    (vars : ∀ left right, (join left right).vars = left.vars ++ right.vars)
    {low middle high : Nat} {left right left' right' : Formula}
    (first : Like low middle left left') (second : Like middle high right right')
    (apart : ∀ n ∈ numbers left.vars, n ∉ numbers right.vars) (lower : low ≤ middle)
    (upper : middle ≤ high) : Like low high (join left right) (join left' right') := by
  obtain ⟨f, rfl, numbered⟩ := first
  obtain ⟨g, rfl, numbered'⟩ := second
  obtain ⟨h, onLeft, onRight⟩ := exists_joint apart f g
  refine ⟨h, ?_, ?_⟩
  · rw [rename, rename_congr onLeft, rename_congr onRight]
  · rw [vars]
    exact numbered.append numbered' lower upper

/-- What follows a formula carries on neither a term nor a relation. -/
structure Ends (position : Position) (more : List Char) (finish : Token) : Prop
    extends Term.Quiet position more finish where
  unrelated : relation? (edge (scan position more) finish).kind = none

/-- A parser reads a formula from a text in front of anything that ends it, where no more tokens are
left than a bound. -/
def ReadsAs (bound : Nat) (parser : Parser Formula) (behind : Kind → Prop) (text : List Char)
    (formula : Formula) : Prop :=
  ∀ (position : Position) (more : List Char) (finish : Token) (w : Nat),
    finish.kind = .endOfInput → Ends (position.after text) more finish →
    behind (edge (scan (position.after text) more) finish).kind →
    (scan position (text ++ more)).length ≤ bound →
    ∃ other count, w ≤ count ∧ Like w count formula other ∧
      parser ⟨scan position (text ++ more), finish, w⟩ =
        (.ok other, ⟨scan (position.after text) more, finish, count⟩)

/-- A connective: how it is written, what it makes of two formulas, and what regrouping makes of
them. -/
structure Connective where
  operator? : Kind → Option (Formula → Formula → Formula)
  kind : Kind
  symbol : Char
  combine : Formula → Formula → Formula
  join : Formula → Formula → Formula
  found : operator? kind = some combine
  listed : (symbol, kind) ∈ Source.punctuation
  ends : kind.endsTerm = true
  unrelated : relation? kind = none
  assoc : ∀ first second third, join first (join second third) = join (join first second) third
  rename : ∀ π left right,
    Formula.rename π (join left right) = join (Formula.rename π left) (Formula.rename π right)
  vars : ∀ left right, (join left right).vars = left.vars ++ right.vars

namespace Connective

def conjunctive : Connective where
  operator? := conjunction?
  kind := .ampersand
  symbol := '&'
  combine := conjunction
  join := joinConjunction
  found := rfl
  listed := by decide
  ends := rfl
  unrelated := rfl
  assoc := joinConjunction_assoc
  rename := rename_joinConjunction
  vars left right := by
    rw [vars_eq_flatMap, terms_joinConjunction, List.flatMap_append, ← vars_eq_flatMap,
      ← vars_eq_flatMap]

def disjunctive : Connective where
  operator? := disjunction?
  kind := .bar
  symbol := '|'
  combine := disjunction
  join := joinDisjunction
  found := rfl
  listed := by decide
  ends := rfl
  unrelated := rfl
  assoc := joinDisjunction_assoc
  rename := rename_joinDisjunction
  vars left right := by
    rw [vars_eq_flatMap, terms_joinDisjunction, List.flatMap_append, ← vars_eq_flatMap,
      ← vars_eq_flatMap]

variable (connective : Connective)

/-- A text behind the connective's sign. -/
def linked (text : List Char) : List Char :=
  ' ' :: connective.symbol :: ' ' :: text

/-- A chain that has read a formula from a text, at its beginning or behind a sign. -/
structure Joined (bound : Nat) (operand : Parser Formula) (behind : Kind → Prop)
    (text : List Char) (formula : Formula) : Prop where
  tidy : Tidy text
  head : ∀ (position : Position) (more : List Char) (finish : Token) (w : Nat),
    finish.kind = .endOfInput → Ends (position.after text) more finish →
    behind (edge (scan (position.after text) more) finish).kind →
    (scan position (text ++ more)).length ≤ bound →
    ∃ other count fuel, w ≤ count ∧ Like w count formula other ∧
      (scan (position.after text) more).length < fuel ∧
      chain connective.operator? operand ⟨scan position (text ++ more), finish, w⟩ =
        chainFrom connective.operator? operand fuel other
          ⟨scan (position.after text) more, finish, count⟩
  tail : ∀ (left : Formula) (fuel : Nat) (position : Position) (more : List Char) (finish : Token)
    (w : Nat), finish.kind = .endOfInput →
    Ends (position.after (connective.linked text)) more finish →
    behind (edge (scan (position.after (connective.linked text)) more) finish).kind →
    (scan position (connective.linked (text ++ more))).length ≤ bound →
    (scan position (connective.linked (text ++ more))).length < fuel →
    ∃ other count fuel', w ≤ count ∧ Like w count formula other ∧
      (scan (position.after (connective.linked text)) more).length < fuel' ∧
      chainFrom connective.operator? operand fuel left
        ⟨scan position (connective.linked (text ++ more)), finish, w⟩ =
        chainFrom connective.operator? operand fuel' (connective.join left other)
          ⟨scan (position.after (connective.linked text)) more, finish, count⟩

variable {connective} {bound : Nat} {operand : Parser Formula} {behind : Kind → Prop}
  {text : List Char} {formula : Formula}

theorem scan_linked (position : Position) (text : List Char) :
    scan position (connective.linked text) =
      ⟨connective.kind, [connective.symbol], position.next ' ', true⟩ ::
        scan (position.after (connective.linked [])) text := by
  rw [linked, Source.scan_blank (by decide), Source.scan_punctuation connective.listed,
    Source.scan_blank (by decide)]
  rfl

/-- An operand that is no node of the connective is read as one. -/
theorem Joined.single (reads : ReadsAs bound operand behind text formula) (tidy : Tidy text)
    (alone : ∀ left f, connective.join left (formula.rename (.renumber f)) =
      connective.combine left (formula.rename (.renumber f))) :
    connective.Joined bound operand behind text formula := by
  refine ⟨tidy, ?_, ?_⟩
  · intro position more finish w ended ends follows few
    obtain ⟨other, count, later, like, ran⟩ := reads position more finish w ended ends follows few
    refine ⟨other, count, _, later, like, Nat.lt_succ_self _, ?_⟩
    rw [chain, run_bind, ran]
    rfl
  · intro left fuel position more finish w ended ends follows few enough
    rw [scan_linked, List.length_cons] at few enough
    obtain ⟨other, count, later, like, ran⟩ :=
      reads (position.after (connective.linked [])) more finish w ended ends follows (by omega)
    have shorter := tidy.scan_length_le ends.detached (position.after (connective.linked []))
    obtain ⟨fuel, rfl⟩ := Nat.exists_eq_add_one_of_ne_zero (Nat.ne_zero_of_lt enough)
    refine ⟨other, count, fuel, later, like, Nat.lt_of_le_of_lt shorter (by omega), ?_⟩
    obtain ⟨f, rfl, -⟩ := like
    rw [scan_linked, alone]
    refine run_chainFrom_step ?_ connective.found ran fuel left
    exact Source.punctuation_formed connective.listed _ _

/-- A sign of the connective ends the formula before it. -/
theorem ends_linked (connective : Connective) (position : Position) (text : List Char)
    (finish : Token) : Ends position (connective.linked text) finish ∧
      (edge (scan position (connective.linked text)) finish).kind = connective.kind := by
  have kind : (edge (scan position (connective.linked text)) finish).kind = connective.kind := by
    rw [scan_linked]
    rfl
  refine ⟨⟨⟨Source.detached_space _, ?_, ?_⟩, ?_⟩, kind⟩
  · rw [kind, connective.ends]
  · rw [scan_linked]
    exact Source.punctuation_formed connective.listed _ _
  · rw [kind, connective.unrelated]

theorem Tidy.linked (tidy : Tidy text) : Tidy (connective.linked text) :=
  (tidy.space.punctuation connective.listed).space

/-- A node of the connective is read as its operands are. -/
theorem Joined.node {left right : Formula} {first second : List Char}
    (reads : connective.Joined bound operand behind first left)
    (reads' : connective.Joined bound operand behind second right)
    (apart : ∀ n ∈ numbers left.vars, n ∉ numbers right.vars)
    (follows : behind connective.kind) :
    connective.Joined bound operand behind (first ++ connective.linked second)
      (connective.join left right) := by
  refine ⟨reads.tidy.append (Tidy.linked reads'.tidy) (Source.detached_space _), ?_, ?_⟩
  · intro position more finish w ended ends behindAll few
    obtain ⟨endsLeft, kind⟩ :=
      connective.ends_linked (position.after first) (second ++ more) finish
    rw [List.append_assoc] at few ⊢
    obtain ⟨left', count, fuel, later, like, enough, ran⟩ :=
      reads.head position (connective.linked (second ++ more)) finish w ended endsLeft
        (kind ▸ follows) few
    rw [Position.after_append] at ends behindAll ⊢
    obtain ⟨right', count', fuel', later', like', enough', ran'⟩ :=
      reads'.tail left' fuel (position.after first) more finish count ended ends behindAll
        (Nat.le_trans (reads.tidy.scan_length_le endsLeft.detached position) few) enough
    exact ⟨connective.join left' right', count', fuel', Nat.le_trans later later',
      like_joined connective.rename connective.vars like like' apart later later', enough',
      ran.trans ran'⟩
  · intro before fuel position more finish w ended ends behindAll few enough
    obtain ⟨endsLeft, kind⟩ := connective.ends_linked (position.after (connective.linked first))
      (second ++ more) finish
    have whole : connective.linked (first ++ connective.linked second) =
        connective.linked first ++ connective.linked second := rfl
    rw [List.append_assoc] at few enough ⊢
    obtain ⟨left', count, fuel', later, like, enough', ran⟩ :=
      reads.tail before fuel position (connective.linked (second ++ more)) finish w ended endsLeft
        (kind ▸ follows) few enough
    rw [whole, Position.after_append] at ends behindAll ⊢
    have tidy : Tidy (connective.linked first) := Tidy.linked reads.tidy
    obtain ⟨right', count', fuel'', later', like', enough'', ran'⟩ :=
      reads'.tail (connective.join before left') fuel' (position.after (connective.linked first))
        more finish count ended ends behindAll
        (Nat.le_trans (tidy.scan_length_le endsLeft.detached position) few) enough'
    refine ⟨connective.join left' right', count', fuel'', Nat.le_trans later later',
      like_joined connective.rename connective.vars like like' apart later later', enough'', ?_⟩
    rw [connective.assoc]
    exact ran.trans ran'

/-- A chain that ends reads a formula as a whole. -/
theorem Joined.reads (joined : connective.Joined bound operand behind text formula) :
    ReadsAs bound (chain connective.operator? operand)
      (fun kind => behind kind ∧ connective.operator? kind = none) text formula := by
  intro position more finish w ended ends follows few
  obtain ⟨other, count, fuel, later, like, enough, ran⟩ :=
    joined.head position more finish w ended ends follows.1 few
  refine ⟨other, count, later, like, ?_⟩
  rw [ran]
  refine run_chainFrom_end ?_ follows.2 _ _ _
  exact ends.formed

end Connective

end AgentSpeak.Formula
