import AgentSpeak.Proofs.Formula.Grouping
import AgentSpeak.Proofs.Program.Orderly
import AgentSpeak.Proofs.Term.Kept

namespace AgentSpeak

open Source (Token Kind Parser Cursor Problem Cause Passes Lexeme)
open Source.Parser

namespace Statement

/-- The statements that are written as a sign and a literal. -/
inductive Mark where
  | achieve
  | achieveLater
  | test
  | add
  | remove
  | replace

namespace Mark

def make : Mark → Term → Statement
  | achieve => .achieve
  | achieveLater => .achieveLater
  | test => .test
  | add => .add
  | remove => .remove
  | replace => .replace

def sign : Mark → List Char
  | achieve => ['!']
  | achieveLater => ['!', '!']
  | test => ['?']
  | add => ['+']
  | remove => ['-']
  | replace => ['-', '+']

def kind : Mark → Kind
  | achieve => .bang
  | achieveLater => .bangBang
  | test => .question
  | add => .plus
  | remove => .minus
  | replace => .minusPlus

theorem render_make (mark : Mark) (literal : Term) (indent : String) :
    ((mark.make literal).render indent).toList = mark.sign ++ literal.render.toList := by
  cases mark <;> simp [make, sign, render]

end Mark

/-- A statement that the grammar can give. -/
inductive Legible : Statement → Prop where
  | marked (mark : Mark) (literal : Term) (callable : literal.Callable) : Legible (mark.make literal)
  | builtin (name : String) (arguments : List Term) (word : IsWord name)
      (kind : Lexeme.nameKind name.toList = .functor)
      (each : ∀ argument ∈ arguments, argument.Speakable) :
      Legible (.action .builtin name arguments)
  | user (literal : Term) (speakable : literal.Speakable) (plain : literal.isPlainLiteral = true) :
      Legible (ofLiteral .user literal)
  | constraint (relation : Relation) (left right : Term)
      (known : ∃ kind, Formula.relation? kind = some relation) (first : left.Speakable)
      (second : right.Speakable) : Legible (.constraint relation left right)
  | branch (condition : Formula) (positive negative : List Statement)
      (legible : condition.Legible) (first : ∀ statement ∈ positive, Legible statement)
      (second : ∀ statement ∈ negative, Legible statement) :
      Legible (.branch condition positive negative)
  | loop (condition : Formula) (body : List Statement) (legible : condition.Legible)
      (each : ∀ statement ∈ body, Legible statement) : Legible (.loop condition body)

/-- Statements that the grammar can give. -/
abbrev AllLegible (body : List Statement) : Prop :=
  ∀ statement ∈ body, statement.Legible

end Statement

structure Plan.Legible (plan : Plan) : Prop where
  label : ∀ label ∈ plan.label, label.Callable
  trigger : plan.trigger.literal.Callable
  context : plan.context.Legible
  body : Statement.AllLegible plan.body

/-- A clause that the grammar can give. -/
inductive Clause.Legible : Clause → Prop where
  | belief (fact : Term) (callable : fact.Callable) (ground : fact.isGround = true) :
      Legible (.belief fact)
  | rule (head : Term) (body : Formula) (callable : head.Callable) (legible : body.Legible) :
      Legible (.rule ⟨head, body⟩)
  | goal (goal : Term) (callable : goal.Callable) : Legible (.goal goal)
  | plan (plan : Plan) (legible : plan.Legible) : Legible (.plan plan)

namespace Source

/-- A place in a text: each name there has the text of its kind, and the end of the input is behind. -/
structure Cursor.Lexed (cursor : Cursor) : Prop where
  ended : cursor.finish.kind = .endOfInput
  named : Term.AllNamed cursor.upcoming

theorem Cursor.Lexed.sound {cursor : Cursor} (lexed : cursor.Lexed) : cursor.Sound :=
  ⟨lexed.ended, fun token member => (lexed.named token member).spelled⟩

theorem Passes.lexed {used : List Token} {before after : Cursor} (passes : Passes used before after)
    (lexed : before.Lexed) : after.Lexed :=
  ⟨passes.finish ▸ lexed.ended, fun token member => lexed.named token (by
    rw [passes.split]
    exact List.mem_append_right used member)⟩

namespace Parser

variable {α β : Type}

/-- Whatever a parser gives in a text has a property. -/
def Delivers (parser : Parser α) (given : α → Prop) : Prop :=
  ∀ cursor value after, cursor.Lexed → parser cursor = (.ok value, after) → given value

variable {parser : Parser α} {given : α → Prop} {result : β → Prop}

theorem delivers_pure {value : α} (done : given value) : Delivers (pure value) given := by
  rintro cursor _ _ - ⟨⟩
  exact done

theorem delivers_throw (problem : Problem) : Delivers (throw problem) given := by
  rintro cursor _ _ - ⟨⟩

theorem delivers_fail (expectation : Expectation) : Delivers (fail expectation) given :=
  fun _ _ _ _ done => absurd done not_ok_fail

theorem Delivers.bind [Orderly anyToken parser] {next : α → Parser β}
    (first : Delivers parser given) (rest : ∀ value, given value → Delivers (next value) result) :
    Delivers (parser >>= next) result := by
  intro cursor value after lexed done
  obtain ⟨found, middle, ran, ranNext⟩ := ok_bind done
  obtain ⟨used, passes⟩ := Orderly.passes lexed.sound ran
  exact rest found (first cursor found middle lexed ran) middle value after (passes.lexed lexed)
    ranNext

/-- A step whose value does not matter. -/
theorem delivers_behind [Orderly anyToken parser] {next : α → Parser β}
    (rest : ∀ value, Delivers (next value) result) : Delivers (parser >>= next) result :=
  have first : Delivers parser fun _ => True := fun _ _ _ _ _ => trivial
  first.bind fun value _ => rest value

theorem Delivers.map [Orderly anyToken parser] {f : α → β} (delivers : Delivers parser given)
    (done : ∀ value, given value → result (f value)) :
    Delivers (parser >>= fun value => pure (f value)) result :=
  delivers.bind fun value own => delivers_pure (done value own)

end Parser

end Source

namespace Term

theorem delivers_parse : Delivers parse Speakable := by
  intro cursor term after lexed done
  obtain ⟨tokens, passes, -, derivation⟩ := derives_parse cursor lexed.ended term after done
  refine derivation.speakable (lexed.named.mono ?_)
  rw [passes.split]
  exact List.subset_append_left _ _

theorem delivers_parseLiteral : Delivers parseLiteral Callable := by
  intro cursor term after lexed done
  obtain ⟨tokens, passes, -, derivation⟩ :=
    derives_literal derives_parse cursor lexed.ended term after done
  refine derivation.callable (lexed.named.mono ?_)
  rw [passes.split]
  exact List.subset_append_left _ _

end Term

theorem Formula.delivers_parse : Delivers parse Legible := by
  rintro ⟨tokens, finish, w⟩ formula after lexed done
  have paired : (Term.twice finish 0).Paired tokens tokens := Term.twice_paired lexed.sound.spelled
  obtain ⟨outcome, left, high, ran, -, -, -, same⟩ := reads_parse (Term.twice_fit lexed.ended 0) rfl
    (fun _ own => own) _ w _ _ paired (Nat.lt_succ_self _)
  rw [Term.twice_first, done] at ran
  cases ran
  obtain ⟨_, -, -, -, outcomes⟩ := same (.inl ⟨trivial, rfl⟩)
  cases outcomes with
  | ok copied => exact copied.legible

theorem Trigger.delivers_parse : Delivers parse fun trigger => trigger.literal.Callable := by
  rw [parse]
  refine delivers_behind fun change => delivers_behind fun subject => ?_
  exact Term.delivers_parseLiteral.map fun _ callable => callable

namespace Statement

/-- Behind a full stop there is a name, which no other word is. -/
theorem delivers_parseBuiltin : Delivers parseBuiltin Legible := by
  rw [parseBuiltin]
  refine delivers_behind fun dot => ?_
  intro cursor statement after lexed done
  obtain ⟨name, middle, peeked, done⟩ := ok_bind done
  obtain ⟨-, rfl, rfl⟩ := ok_peek peeked
  split at done
  next => cases done
  next named =>
    have functor : middle.token.kind = .functor := not_not.mp (not_or.mp named).1
    obtain ⟨literal, last, ran, same⟩ := ok_bind done
    cases same
    obtain ⟨tokens, passes, -, derivation⟩ :=
      Term.derives_literal Term.derives_parse middle lexed.ended literal after ran
    have first : ∀ token ∈ tokens.head?, token.kind = .functor := by
      obtain ⟨first, rest, rfl, -⟩ := derivation.begins
      rw [Cursor.token, passes.split] at functor
      exact fun token member => Option.some.inj member ▸ functor
    have named : Term.AllNamed tokens :=
      lexed.named.mono (passes.split ▸ List.subset_append_left _ _)
    obtain ⟨name, arguments, rfl, word, kind, each⟩ := derivation.called named first
    rw [ofLiteral, Term.literalParts_literal]
    exact .builtin name arguments word kind each

theorem delivers_parseCondition : Delivers parseCondition Formula.Legible := by
  rw [parseCondition]
  refine delivers_behind fun _ => Formula.delivers_parse.bind fun condition legible => ?_
  exact delivers_behind fun _ => delivers_pure legible

theorem delivers_parseCall : Delivers parseCall Legible := by
  rw [parseCall]
  refine delivers_behind fun first => Term.delivers_parse.bind fun left speakable => ?_
  rw [parseBehind]
  refine delivers_behind fun token => ?_
  split
  next relation found =>
    refine delivers_behind fun _ => Term.delivers_parse.map fun right speakable' => ?_
    exact .constraint relation left right ⟨_, found⟩ speakable speakable'
  next =>
    split
    next plain => exact delivers_pure (.user left speakable plain)
    next => exact delivers_throw _

section Blocks

variable {body : Parser (List Statement)} [∀ allowed, Orderly allowed body]
  (delivers : Delivers body AllLegible)

include delivers

theorem delivers_parseBlock : Delivers (parseBlock body) AllLegible := by
  rw [parseBlock]
  refine delivers_behind fun _ => delivers_behind fun closed => ?_
  split
  · exact delivers_pure nofun
  · refine delivers.bind fun statements legible => delivers_behind fun _ => ?_
    exact delivers_pure legible

theorem delivers_parseLoop : Delivers (parseLoop body) Legible := by
  rw [parseLoop]
  refine delivers_parseCondition.bind fun condition legible => ?_
  exact (delivers_parseBlock delivers).map fun statements each => .loop condition _ legible each

theorem delivers_parseBranch (fuel : Nat) : Delivers (parseBranch body fuel) Legible := by
  induction fuel with
  | zero => exact delivers_fail _
  | succ fuel ih =>
    rw [parseBranch]
    simp only [pure_bind]
    refine delivers_behind fun _ => delivers_parseCondition.bind fun condition legible => ?_
    refine (delivers_parseBlock delivers).bind fun positive first => delivers_behind fun more => ?_
    split
    · refine delivers_behind fun nested => ?_
      split
      · refine ih.map fun inner own => .branch condition positive _ legible first ?_
        simpa using own
      · refine (delivers_parseBlock delivers).map fun negative second => ?_
        exact .branch condition positive negative legible first second
    · exact delivers_pure (.branch condition positive [] legible first (by simp))

theorem delivers_parseWith :
    Delivers (parseWith body) fun found => ∀ statement ∈ found, statement.Legible := by
  have whole {parser : Parser Statement} [Orderly anyToken parser]
      (delivers : Delivers parser Legible) :
      Delivers (do return some (← parser)) fun found => ∀ statement ∈ found, statement.Legible :=
    delivers.map fun statement legible => by simpa using legible
  have marked (mark : Mark) : Delivers (do let _ ← advance; return some (mark.make (← Term.parseLiteral)))
      fun found => ∀ statement ∈ found, statement.Legible :=
    delivers_behind fun _ => Term.delivers_parseLiteral.map fun literal callable => by
      simpa using Legible.marked mark literal callable
  rw [parseWith]
  refine delivers_behind fun token => ?_
  split
  next => exact marked .achieveLater
  next => exact marked .achieve
  next => exact marked .test
  next => exact marked .add
  next => exact marked .replace
  next => exact marked .remove
  next => exact whole delivers_parseBuiltin
  next => exact delivers_behind fun fuel => whole (delivers_parseBranch delivers fuel)
  next => exact delivers_behind fun _ => whole (delivers_parseLoop delivers)
  next =>
    refine delivers_behind fun second => ?_
    split
    · exact delivers_behind fun _ => delivers_pure (by simp)
    · exact whole delivers_parseCall
  next => exact whole delivers_parseCall

end Blocks

theorem delivers_parseSequence {statement : Parser (Option Statement)}
    [∀ allowed, Orderly allowed statement]
    (delivers : Delivers statement fun found => ∀ statement ∈ found, statement.Legible) (fuel : Nat) :
    Delivers (parseSequence statement fuel) AllLegible := by
  induction fuel with
  | zero => exact delivers_pure nofun
  | succ fuel ih =>
    rw [parseSequence]
    refine delivers.bind fun first own => delivers_behind fun more => ?_
    have own : AllLegible first.toList := by simpa [AllLegible] using own
    split
    · exact ih.map fun rest others => List.forall_mem_append.mpr ⟨own, others⟩
    · exact delivers_pure own

theorem delivers_parseBodyWithin (depth : Nat) : Delivers (parseBodyWithin depth) AllLegible := by
  induction depth with
  | zero => exact delivers_fail _
  | succ depth ih =>
    exact delivers_behind fun fuel => delivers_parseSequence (delivers_parseWith ih) fuel

theorem delivers_parseBody : Delivers parseBody AllLegible :=
  delivers_behind fun depth => delivers_parseBodyWithin depth

end Statement

namespace Plan

theorem delivers_parseLabel : Delivers parseLabel fun label => ∀ term ∈ label, term.Callable := by
  rw [parseLabel]
  refine delivers_behind fun labelled => ?_
  split
  · exact Term.delivers_parseLiteral.map fun literal callable => by simpa using callable
  · exact delivers_pure (by simp)

theorem delivers_parseContext : Delivers parseContext Formula.Legible := by
  rw [parseContext]
  refine delivers_behind fun limited => ?_
  split
  · exact Formula.delivers_parse
  · exact delivers_pure (.literal Term.truth (.atom "true" (by decide)) rfl)

theorem delivers_parseBody : Delivers parseBody Statement.AllLegible := by
  rw [parseBody]
  refine delivers_behind fun acts => ?_
  split
  · exact Statement.delivers_parseBody
  · exact delivers_pure nofun

theorem delivers_parse : Delivers parse Legible := by
  rw [parse]
  refine delivers_parseLabel.bind fun label named => Trigger.delivers_parse.bind fun trigger own => ?_
  refine delivers_parseContext.bind fun context legible => delivers_parseBody.bind fun body each => ?_
  exact delivers_behind fun _ => delivers_pure ⟨named, own, legible, each⟩

end Plan

namespace Clause

theorem delivers_parse : Delivers parse Legible := by
  have goal : Delivers parseGoal Legible := by
    rw [parseGoal]
    refine Term.delivers_parseLiteral.bind fun goal callable => delivers_behind fun _ => ?_
    exact delivers_pure (.goal goal callable)
  have ruleOrBelief : Delivers parseRuleOrBelief Legible := by
    rw [parseRuleOrBelief]
    refine delivers_behind fun first => Term.delivers_parseLiteral.bind fun head callable => ?_
    refine delivers_behind fun defines => ?_
    split
    · refine Formula.delivers_parse.bind fun body legible => delivers_behind fun _ => ?_
      exact delivers_pure (.rule head body callable legible)
    · split
      next => exact delivers_throw _
      next ground =>
        refine delivers_behind fun _ => delivers_pure (.belief head callable ?_)
        simpa using ground
  have plan : Delivers (do return .plan (← Plan.parse)) Legible :=
    Plan.delivers_parse.map fun plan legible => .plan plan legible
  rw [parse]
  refine delivers_behind fun first => ?_
  split
  · exact delivers_behind fun _ => goal
  · exact plan
  · exact plan
  · exact plan
  · exact ruleOrBelief

end Clause

end AgentSpeak
