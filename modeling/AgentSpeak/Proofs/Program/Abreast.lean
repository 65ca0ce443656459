import AgentSpeak.Proofs.Program.Orderly
import AgentSpeak.Proofs.Program.Renaming
import AgentSpeak.Proofs.Source.Abreast

namespace AgentSpeak

open Source (Token Kind Parser Cursor Surroundings)
open Source.Parser

/-- How the variables of a first run are called in the second one, which has seen more wildcards. -/
def Source.Surroundings.renaming (S : Surroundings) : Variable → Variable :=
  .renumber (· + S.shift)

variable {S : Surroundings} {w : Nat} {p q : List Token}

/-- The name of a literal is read, whatever comes of the rest. -/
theorem Term.parseLiteral_shortens {cursor : Cursor} (sound : cursor.Sound)
    (functor : cursor.token.kind = .functor) :
    (parseLiteral cursor).2.upcoming.length < cursor.upcoming.length := by
  have formed : cursor.token.problem? = none := by
    unfold Token.problem?
    rw [functor]
  have some : cursor.upcoming ≠ [] := by
    intro none
    rw [Cursor.token, none] at functor
    cases sound.ended.symm.trans functor
  let rest : Parser Term := do
    let name := String.ofList cursor.token.text
    return literal name (← parseArguments parse name)
  have orderly : Orderly anyToken rest := by
    unfold rest parseArguments
    infer_instance
  have ran : parseLiteral cursor = rest (behind cursor) := by
    rw [parseLiteral, parseLiteralWith, run_then (run_peek_formed formed)]
    simp only [functor]
    exact run_then (run_advance formed) _
  have tail : (behind cursor).upcoming.length = cursor.upcoming.length - 1 := List.length_tail
  have positive := List.length_pos_of_ne_nil some
  have left := Orderly.length_le rest sound.behind
  rw [ran]
  omega

section Terms

variable (sound : S.Sound) (facing : S.Facing p q)

include sound facing

theorem Term.abreast_parse : Abreast False S w p q Term.parse Term.parse
    fun _ term copy => copy = term.rename S.renaming :=
  Term.rereads_parse.abreast sound facing

theorem Term.abreast_parseLiteral : Abreast False S w p q Term.parseLiteral Term.parseLiteral
    fun _ term copy => copy = term.rename S.renaming :=
  Term.rereads_parseLiteral.abreast sound facing

theorem Formula.abreast_parse : Abreast False S w p q Formula.parse Formula.parse
    fun _ formula copy => copy = formula.rename S.renaming :=
  Formula.rereads_parse.abreast sound facing

/-- What is made of a literal alone. -/
theorem Term.abreast_literal {α : Type} {f : Term → α} {related : α → α → Prop}
    (values : ∀ term, related (f term) (f (term.rename S.renaming))) :
    Abreast False S w p q (do return f (← Term.parseLiteral)) (do return f (← Term.parseLiteral))
      fun _ => related := by
  refine (Term.abreast_parseLiteral sound facing).map ?_
  rintro left term _ rfl
  exact values term

theorem Trigger.abreast_parseSubject : Abreast False S w p q parseSubject parseSubject
    fun _ subject subject' => subject = subject' := by
  rw [parseSubject]
  refine (abreast_accept facing .bang (by decide)).bind sound facing ?_
  rintro w' left left' found _ facing' - ⟨rfl, -⟩
  split
  · exact abreast_pure facing' rfl
  refine (abreast_accept facing' .question (by decide)).bind sound facing' ?_
  rintro w'' left left' found' _ facing'' - ⟨rfl, -⟩
  split <;> exact abreast_pure facing'' rfl

theorem Trigger.abreast_parseChange : Abreast False S w p q parseChange parseChange
    fun _ change change' => change = change' := by
  rw [parseChange]
  refine (abreast_accept facing .plus (by decide)).bind sound facing ?_
  rintro w' left left' found _ facing' - ⟨rfl, -⟩
  split
  · exact abreast_pure facing' rfl
  refine (abreast_accept facing' .minus (by decide)).bind sound facing' ?_
  rintro w'' left left' found' _ facing'' - ⟨rfl, -⟩
  split
  · exact abreast_pure facing'' rfl
  · exact abreast_fail facing'' _ _

theorem Trigger.abreast_parse : Abreast False S w p q Trigger.parse Trigger.parse
    fun _ trigger copy => copy = trigger.rename S.renaming := by
  rw [Trigger.parse]
  refine (abreast_parseChange sound facing).bind sound facing ?_
  rintro w' left left' change _ facing' - rfl
  refine (abreast_parseSubject sound facing').bind sound facing' ?_
  rintro w'' left left' subject _ facing'' - rfl
  exact Term.abreast_literal sound facing'' fun _ => rfl

namespace Statement

/-- The first step of a built-in action is a full stop; that the name is right behind it is seen in
both runs. -/
theorem abreast_parseBuiltin : Abreast False S w p q parseBuiltin parseBuiltin
    fun _ statement copy => copy = statement.rename S.renaming ∧
      endsWithBrace (some statement) = false := by
  rw [parseBuiltin]
  have reads (cursor : Cursor) (here : cursor.Sound) (functor : cursor.token.kind = .functor) :
      ((do return ofLiteral .builtin (← Term.parseLiteral) : Parser Statement) cursor).2.upcoming.length
        < cursor.upcoming.length := by
    have shorter := Term.parseLiteral_shortens here functor
    rw [run_bind]
    rcases ran : Term.parseLiteral cursor with ⟨_ | _, after⟩
    all_goals rwa [ran] at shorter
  refine abreast_dotted sound facing _ _ reads fun w' left left' facing' => ?_
  exact Term.abreast_literal sound facing' fun literal => ⟨ofLiteral_rename .builtin _ literal, rfl⟩

theorem abreast_parseCondition : Abreast False S w p q parseCondition parseCondition
    fun _ formula copy => copy = formula.rename S.renaming := by
  rw [parseCondition]
  refine (abreast_expect facing .openParen _ (by decide)).bind sound facing ?_
  rintro w₁ left₁ left₁' _ _ facing₁ - -
  refine (Formula.abreast_parse sound facing₁).bind sound facing₁ ?_
  rintro w₂ left₂ left₂' condition _ facing₂ - rfl
  exact (abreast_expect facing₂ .closeParen _ (by decide)).map fun _ _ _ _ => rfl

theorem abreast_parseBehind (first first' : Token) (left : Term) :
    Abreast False S w p q (parseBehind first left) (parseBehind first' (left.rename S.renaming))
      fun _ statement copy => copy = statement.rename S.renaming ∧
        endsWithBrace (some statement) = false := by
  rw [parseBehind, parseBehind]
  refine abreast_peek facing fun token token' others others' here there moved formed => ?_
  rw [moved.kind, Term.isPlainLiteral_rename]
  split
  next relation found =>
    subst here there
    have inner : token.kind ≠ .dot := by
      intro dot
      rw [dot] at found
      cases found
    refine (abreast_advance facing inner formed).bind sound facing ?_
    rintro w₁ left₁ left₁' _ _ facing₁ - -
    refine (Term.abreast_parse sound facing₁).map ?_
    rintro left₂ right _ rfl
    exact ⟨rfl, rfl⟩
  next none =>
    split
    · exact abreast_pure facing ⟨ofLiteral_rename .user _ left, rfl⟩
    · exact abreast_throw facing rfl

theorem abreast_parseCall : Abreast False S w p q parseCall parseCall
    fun _ statement copy => copy = statement.rename S.renaming ∧
      endsWithBrace (some statement) = false := by
  rw [parseCall]
  refine abreast_peek facing fun first first' _ _ _ _ _ _ => ?_
  refine (Term.abreast_parse sound facing).bind sound facing ?_
  rintro w₁ left₁ left₁' left _ facing₁ - rfl
  exact abreast_parseBehind sound facing₁ first first' left

/-- Of a statement that ends with a brace, tokens have been read. -/
def Advanced (S : Surroundings) (p left : List Token) (statement copy : Option Statement) : Prop :=
  copy = statement.map (rename S.renaming) ∧
    (endsWithBrace statement = true → left.length < p.length)

/-- A mark and a literal make no statement with a brace. -/
theorem abreast_marked {token token' : Token} {others others' : List Token}
    (here : p = token :: others) (there : q = token' :: others') (formed : token.problem? = none)
    (inner : token.kind ≠ .dot) {f : Term → Statement}
    (plain : ∀ term, endsWithBrace (some (f term)) = false)
    (renames : ∀ term, f (term.rename S.renaming) = (f term).rename S.renaming) :
    Abreast False S w p q (do let _ ← advance; return some (f (← Term.parseLiteral)))
      (do let _ ← advance; return some (f (← Term.parseLiteral))) (Advanced S p) := by
  subst here there
  refine (abreast_advance facing inner formed).bind sound facing ?_
  rintro w' left left' _ _ facing' - -
  refine (Term.abreast_parseLiteral sound facing').map ?_
  rintro left term _ rfl
  exact ⟨congrArg some (renames term), fun ends => by simp [plain] at ends⟩

theorem abreast_called :
    Abreast False S w p q (do return some (← parseCall)) (do return some (← parseCall))
      (Advanced S p) := by
  refine (abreast_parseCall sound facing).map ?_
  rintro left statement _ ⟨rfl, plain⟩
  exact ⟨rfl, fun ends => by simp [plain] at ends⟩

section Blocks

/-- Two parsers of blocks repeat each other on fewer tokens than a bound. -/
def BodiesAbreast (S : Surroundings) (bound : Nat) (body body' : Parser (List Statement)) : Prop :=
  ∀ w p q, S.Facing p q → p.length < bound → Abreast False S w p q body body'
    fun _ statements copies => copies = statements.map (rename S.renaming)

variable {bound : Nat} {body body' : Parser (List Statement)} [∀ allowed, Orderly allowed body']
  (bodies : BodiesAbreast S bound body body')

include bodies

theorem abreast_parseBlock (short : p.length ≤ bound) :
    Abreast False S w p q (parseBlock body) (parseBlock body')
      fun _ statements copies => copies = statements.map (rename S.renaming) := by
  rw [parseBlock, parseBlock]
  refine (abreast_expect facing .openBrace _ (by decide)).bind sound facing ?_
  rintro w₁ left₁ left₁' _ _ facing₁ - ⟨-, shorter⟩
  refine (abreast_accept facing₁ .closeBrace (by decide)).bind sound facing₁ ?_
  rintro w₂ left₂ left₂' found _ facing₂ fewer ⟨rfl, -⟩
  split
  · exact abreast_pure facing₂ rfl
  refine (bodies w₂ left₂ left₂' facing₂ (by omega)).bind sound facing₂ ?_
  rintro w₃ left₃ left₃' statements _ facing₃ - rfl
  exact (abreast_expect facing₃ .closeBrace _ (by decide)).map fun _ _ _ _ => rfl

theorem abreast_parseLoop (short : p.length ≤ bound) :
    Abreast False S w p q (parseLoop body) (parseLoop body')
      fun _ statement copy => copy = statement.rename S.renaming := by
  rw [parseLoop, parseLoop]
  refine (abreast_parseCondition sound facing).bind sound facing ?_
  rintro w₁ left₁ left₁' condition _ facing₁ fewer rfl
  refine (abreast_parseBlock sound facing₁ bodies (by omega)).map ?_
  rintro left₂ statements _ rfl
  rw [rename, renameAll_eq_map]

theorem abreast_parseBranch (fuel fuel' : Nat) (short : p.length ≤ bound)
    (enough : p.length < fuel) (enough' : p.length < fuel') :
    Abreast False S w p q (parseBranch body fuel) (parseBranch body' fuel')
      fun left statement copy => copy = statement.rename S.renaming ∧ left.length < p.length := by
  induction fuel generalizing fuel' w p q with
  | zero => exact absurd enough (Nat.not_lt_zero _)
  | succ fuel ih =>
    obtain ⟨fuel', rfl⟩ := Nat.exists_eq_add_one_of_ne_zero (Nat.ne_zero_of_lt enough')
    rw [parseBranch, parseBranch]
    simp only [pure_bind]
    refine (abreast_expect facing .ifWord _ (by decide)).bind sound facing ?_
    rintro w₁ left₁ left₁' _ _ facing₁ - ⟨-, shorter⟩
    refine (abreast_parseCondition sound facing₁).bind sound facing₁ ?_
    rintro w₂ left₂ left₂' condition _ facing₂ fewer₂ rfl
    refine (abreast_parseBlock sound facing₂ bodies (by omega)).bind sound facing₂ ?_
    rintro w₃ left₃ left₃' positive _ facing₃ fewer₃ rfl
    refine (abreast_accept facing₃ .elseWord (by decide)).bind sound facing₃ ?_
    rintro w₄ left₄ left₄' found _ facing₄ fewer₄ ⟨rfl, -⟩
    have renamed (negative : List Statement) :
        Statement.branch (condition.rename S.renaming) (positive.map (rename S.renaming))
            (negative.map (rename S.renaming)) =
          (Statement.branch condition positive negative).rename S.renaming := by
      rw [rename, renameAll_eq_map, renameAll_eq_map]
    split
    · refine (abreast_check facing₄ .ifWord).bind sound facing₄ ?_
      rintro w₅ left₅ left₅' another _ facing₅ fewer₅ rfl
      split
      · refine (ih facing₅ fuel' (by omega) (by omega) (by omega)).bind sound facing₅ ?_
        rintro w₆ left₆ left₆' inner _ facing₆ fewer₆ ⟨rfl, -⟩
        exact abreast_pure facing₆ ⟨renamed [inner], by omega⟩
      · refine (abreast_parseBlock sound facing₅ bodies (by omega)).bind sound facing₅ ?_
        rintro w₆ left₆ left₆' negative _ facing₆ fewer₆ rfl
        exact abreast_pure facing₆ ⟨renamed negative, by omega⟩
    · exact abreast_pure facing₄ ⟨renamed [], by omega⟩

theorem abreast_parseWith (short : p.length ≤ bound) :
    Abreast False S w p q (parseWith body) (parseWith body') (Advanced S p) := by
  rw [parseWith, parseWith]
  refine abreast_peek facing fun token token' others others' here there moved formed => ?_
  rw [moved.kind]
  split
  case h_1 mark | h_2 mark | h_3 mark | h_4 mark | h_5 mark | h_6 mark =>
    exact abreast_marked sound facing here there formed (by simp [mark]) (fun _ => rfl) fun _ => rfl
  next =>
    refine (abreast_parseBuiltin sound facing).map ?_
    rintro left statement _ ⟨rfl, plain⟩
    exact ⟨rfl, fun ends => by simp [plain] at ends⟩
  next =>
    refine abreast_budget facing fun fuel fuel' enough enough' => ?_
    refine (abreast_parseBranch sound facing bodies fuel fuel' short enough enough').map ?_
    rintro left statement _ ⟨rfl, shorter⟩
    exact ⟨rfl, fun _ => shorter⟩
  next word =>
    subst here there
    rw [List.length_cons] at short
    refine (abreast_advance facing (by simp [word]) formed).bind sound facing ?_
    rintro w' left left' _ _ facing' - ⟨-, rfl⟩
    refine (abreast_parseLoop sound facing' bodies (by omega)).bind sound facing' ?_
    rintro w'' left₂ left₂' statement _ facing'' fewer rfl
    exact abreast_pure facing'' ⟨rfl, fun _ => Nat.lt_succ_of_le fewer⟩
  next word =>
    subst here there
    have inner : token.kind ≠ .dot := by simp [word]
    refine abreast_peekSecond facing inner fun second second' moved' => ?_
    rw [moved'.kind]
    split
    · exact (abreast_advance facing inner formed).map fun _ _ _ _ => ⟨rfl, by simp [endsWithBrace]⟩
    · exact abreast_called sound facing
  next => exact abreast_called sound facing

omit bodies in
/-- Another statement follows only where a semicolon or a brace has been read. -/
theorem abreast_parseMore (first : Option Statement) :
    Abreast False S w p q (parseMore first) (parseMore first) fun left more more' =>
      more = more' ∧ (more = true → endsWithBrace first = true ∨ left.length < p.length) := by
  rw [parseMore]
  refine (abreast_accept facing .semicolon (by decide)).bind sound facing ?_
  rintro w₁ left₁ left₁' found _ facing₁ fewer₁ ⟨rfl, shorter⟩
  split
  next found =>
    refine (abreast_check facing₁ .closeBrace).bind sound facing₁ ?_
    rintro w₂ left₂ left₂' closes _ facing₂ fewer₂ rfl
    exact abreast_pure facing₂ ⟨rfl, fun _ => .inr (Nat.lt_of_le_of_lt fewer₂ (shorter found))⟩
  next =>
    split
    next brace =>
      refine (abreast_check facing₁ .dot).bind sound facing₁ ?_
      rintro w₂ left₂ left₂' ends _ facing₂ - rfl
      refine (abreast_check facing₂ .closeBrace).map ?_
      rintro left₃ closes _ rfl
      exact ⟨rfl, fun _ => .inl brace⟩
    next => exact abreast_pure facing₁ ⟨rfl, by simp⟩

omit bodies in
theorem abreast_parseSequence {statement statement' : Parser (Option Statement)}
    [∀ allowed, Orderly allowed statement']
    (each : ∀ w p q, S.Facing p q → p.length ≤ bound →
      Abreast False S w p q statement statement' (Advanced S p))
    (fuel fuel' : Nat) (short : p.length ≤ bound) (enough : p.length < fuel)
    (enough' : p.length < fuel') :
    Abreast False S w p q (parseSequence statement fuel) (parseSequence statement' fuel')
      fun _ statements copies => copies = statements.map (rename S.renaming) := by
  induction fuel generalizing fuel' w p q with
  | zero => exact absurd enough (Nat.not_lt_zero _)
  | succ fuel ih =>
    obtain ⟨fuel', rfl⟩ := Nat.exists_eq_add_one_of_ne_zero (Nat.ne_zero_of_lt enough')
    rw [parseSequence, parseSequence]
    refine (each w p q facing short).bind sound facing ?_
    rintro w₁ left₁ left₁' first _ facing₁ fewer₁ ⟨rfl, advanced⟩
    have renamed : (first.map (rename S.renaming)).toList =
        first.toList.map (rename S.renaming) := by
      cases first <;> rfl
    simp only [parseMore_rename, renamed]
    refine (abreast_parseMore sound facing₁ first).bind sound facing₁ ?_
    rintro w₂ left₂ left₂' more _ facing₂ fewer₂ ⟨rfl, follows⟩
    split
    next more =>
      have shorter : left₂.length < p.length := by
        rcases follows more with brace | shorter
        · exact Nat.lt_of_le_of_lt fewer₂ (advanced brace)
        · exact Nat.lt_of_lt_of_le shorter fewer₁
      refine (ih facing₂ fuel' (by omega) (by omega) (by omega)).map ?_
      rintro left₃ rest _ rfl
      exact List.map_append.symm
    next => exact abreast_pure facing₂ rfl

end Blocks

omit facing in
/-- A block holds fewer tokens than what it stands in, so the depth of both runs is enough. -/
theorem bodiesAbreast_parseBodyWithin (bound depth depth' : Nat)
    (enough : bound ≤ depth) (enough' : bound ≤ depth') :
    BodiesAbreast S bound (parseBodyWithin depth) (parseBodyWithin depth') := by
  induction bound generalizing depth depth' with
  | zero => exact fun w p q facing short => absurd short (Nat.not_lt_zero _)
  | succ bound ih =>
    obtain ⟨depth, rfl⟩ := Nat.exists_eq_add_one_of_ne_zero (Nat.ne_zero_of_lt enough)
    obtain ⟨depth', rfl⟩ := Nat.exists_eq_add_one_of_ne_zero (Nat.ne_zero_of_lt enough')
    have bodies := ih depth depth' (by omega) (by omega)
    intro w p q facing short
    rw [parseBodyWithin, parseBodyWithin]
    refine abreast_budget facing fun fuel fuel' enoughFuel enoughFuel' => ?_
    exact abreast_parseSequence sound facing
      (fun w p q facing short => abreast_parseWith sound facing bodies short) fuel fuel'
      (Nat.le_of_lt_succ short) enoughFuel enoughFuel'

theorem abreast_parseBody : Abreast False S w p q parseBody parseBody
    fun _ statements copies => copies = statements.map (rename S.renaming) := by
  rw [parseBody]
  refine abreast_budget facing fun depth depth' enough enough' => ?_
  exact bodiesAbreast_parseBodyWithin sound (p.length + 1) depth depth' enough enough' w p q facing
    (Nat.lt_succ_self _)

end Statement

namespace Plan

theorem abreast_parseLabel : Abreast False S w p q parseLabel parseLabel
    fun _ label copy => copy = label.map (Term.rename S.renaming) := by
  rw [parseLabel]
  refine (abreast_accept facing .label (by decide)).bind sound facing ?_
  rintro w₁ left₁ left₁' found _ facing₁ - ⟨rfl, -⟩
  split
  · exact Term.abreast_literal sound facing₁ fun _ => rfl
  · exact abreast_pure facing₁ rfl

theorem abreast_parseContext : Abreast False S w p q parseContext parseContext
    fun _ context copy => copy = context.rename S.renaming := by
  rw [parseContext]
  refine (abreast_accept facing .colon (by decide)).bind sound facing ?_
  rintro w₁ left₁ left₁' found _ facing₁ - ⟨rfl, -⟩
  split
  · exact Formula.abreast_parse sound facing₁
  · exact abreast_pure facing₁ rfl

theorem abreast_parseBody : Abreast False S w p q parseBody parseBody
    fun _ body copy => copy = body.map (Statement.rename S.renaming) := by
  rw [parseBody]
  refine (abreast_accept facing .planArrow (by decide)).bind sound facing ?_
  rintro w₁ left₁ left₁' found _ facing₁ - ⟨rfl, -⟩
  split
  · exact Statement.abreast_parseBody sound facing₁
  · exact abreast_pure facing₁ rfl

theorem abreast_parse : Abreast True S w p q Plan.parse Plan.parse
    fun _ defined copy => copy = defined.rename S.renaming := by
  rw [Plan.parse]
  refine (abreast_parseLabel sound facing).bind sound facing ?_
  rintro w₁ left₁ left₁' label _ facing₁ - rfl
  refine (Trigger.abreast_parse sound facing₁).bind sound facing₁ ?_
  rintro w₂ left₂ left₂' trigger _ facing₂ - rfl
  refine (abreast_parseContext sound facing₂).bind sound facing₂ ?_
  rintro w₃ left₃ left₃' context _ facing₃ - rfl
  refine (abreast_parseBody sound facing₃).bind sound facing₃ ?_
  rintro w₄ left₄ left₄' body _ facing₄ - rfl
  exact (abreast_stop facing₄ _).map fun _ _ _ _ => rfl

end Plan

namespace Clause

theorem abreast_parseGoal : Abreast True S w p q parseGoal parseGoal
    fun _ clause copy => copy = clause.rename S.renaming := by
  rw [parseGoal]
  refine (Term.abreast_parseLiteral sound facing).bind sound facing ?_
  rintro w₁ left₁ left₁' goal _ facing₁ - rfl
  exact (abreast_stop facing₁ _).map fun _ _ _ _ => rfl

theorem abreast_parseRuleOrBelief : Abreast True S w p q parseRuleOrBelief parseRuleOrBelief
    fun _ clause copy => copy = clause.rename S.renaming := by
  rw [parseRuleOrBelief]
  refine abreast_peek facing fun first first' _ _ _ _ _ _ => ?_
  refine (Term.abreast_parseLiteral sound facing).bind sound facing ?_
  rintro w₁ left₁ left₁' head _ facing₁ - rfl
  refine (abreast_accept facing₁ .ruleArrow (by decide)).bind sound facing₁ ?_
  rintro w₂ left₂ left₂' found _ facing₂ - ⟨rfl, -⟩
  rw [Term.isGround_rename]
  split
  · refine (Formula.abreast_parse sound facing₂).bind sound facing₂ ?_
    rintro w₃ left₃ left₃' body _ facing₃ - rfl
    exact (abreast_stop facing₃ _).map fun _ _ _ _ => rfl
  · split
    · exact abreast_throw facing₂ rfl
    · exact (abreast_stop facing₂ _).map fun _ _ _ _ => rfl

/-- A clause inside a text and the same clause by itself. -/
theorem abreast_parse : Abreast True S w p q Clause.parse Clause.parse
    fun _ clause copy => copy = clause.rename S.renaming := by
  rw [Clause.parse]
  refine abreast_peek facing fun token token' others others' here there moved formed => ?_
  rw [moved.kind]
  have plan : Abreast True S w p q (do return Clause.plan (← Plan.parse))
      (do return Clause.plan (← Plan.parse)) fun _ clause copy => copy = clause.rename S.renaming :=
    (Plan.abreast_parse sound facing).map fun _ _ _ same => congrArg Clause.plan same
  split
  next mark =>
    subst here there
    refine (abreast_advance facing (by simp [mark]) formed).bind sound facing ?_
    rintro w₁ left₁ left₁' _ _ facing₁ - -
    exact abreast_parseGoal sound facing₁
  · exact plan
  · exact plan
  · exact plan
  · exact abreast_parseRuleOrBelief sound facing

end Clause

end Terms

end AgentSpeak
