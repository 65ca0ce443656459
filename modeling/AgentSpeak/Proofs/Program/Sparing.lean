import AgentSpeak.Proofs.Program.Relaid
import AgentSpeak.Proofs.Source.Erasing
import AgentSpeak.Proofs.Source.Sparing

/-!
Programs without a semicolon behind a block. Where something else than a full stop stands behind it,
the block ends the statement by itself, and each parser of a program gives what it gives with the
semicolon.
-/

namespace AgentSpeak

open Source (Kind Parser Cursor Token)
open Source.Parser

instance : Sparing Term.parse :=
  Term.rereads_parse.sparing fun term copy same => by
    rw [same, Variable.renumber_zero, Term.rename_id]

instance : Sparing Term.parseLiteral :=
  Term.rereads_parseLiteral.sparing fun term copy same => by
    rw [same, Variable.renumber_zero, Term.rename_id]

instance : Sparing Formula.parse :=
  Formula.rereads_parse.sparing fun formula copy same => by
    rw [same, Variable.renumber_zero, Formula.rename_id]

namespace Trigger

instance : Sparing parseSubject := by
  have bang : Sparing (accept .bang) := sparing_accept (by decide) (by decide)
  have question : Sparing (accept .question) := sparing_accept (by decide) (by decide)
  unfold parseSubject
  infer_instance

instance : Sparing parseChange := by
  have plus : Sparing (accept .plus) := sparing_accept (by decide) (by decide)
  have minus : Sparing (accept .minus) := sparing_accept (by decide) (by decide)
  unfold parseChange
  infer_instance

instance : Sparing parse := by
  unfold parse
  infer_instance

end Trigger

namespace Statement

instance : Sparing parseCondition := by
  have opening (expectation) : Sparing (expect .openParen expectation) :=
    sparing_expect (by decide) (by decide) expectation
  have closing (expectation) : Sparing (expect .closeParen expectation) :=
    sparing_expect (by decide) (by decide) expectation
  unfold parseCondition
  infer_instance

variable {size : Nat} {cursor other : Cursor}

/-- Behind a statement that ends with a brace the semicolon may be missing, and behind another one
it is not. -/
def Ends (size : Nat) (statement : Option Statement) (after last : Cursor) : Prop :=
  if endsWithBrace statement then after.Passed .closeBrace size last else after.Spares size last

theorem Ends.plain {fewer : Nat} {statement : Option Statement} {after last : Cursor}
    (plain : endsWithBrace statement = false) (behind : after.Spares fewer last)
    (le : fewer ≤ size) : Ends size statement after last := by
  rw [Ends, plain]
  exact behind.mono le

theorem Ends.braced {fewer : Nat} {statement : Statement} {after last : Cursor}
    (behind : endsWithBrace (some statement) = true ∧ after.Passed .closeBrace fewer last)
    (le : fewer ≤ size) : Ends size (some statement) after last := by
  rw [Ends, behind.1]
  exact behind.2.mono le

theorem endsWithBrace_ofLiteral (kind : ActionKind) (literal : Term) :
    endsWithBrace (some (ofLiteral kind literal)) = false := rfl

section Parts

variable (spares : cursor.Spares size other)

include spares

/-- A statement of a mark and a literal. -/
theorem follows_literal {f : Term → Statement} (plain : ∀ term, endsWithBrace (some (f term)) = false)
    {most : Nat} (le : size ≤ most) :
    Follows cursor other (do return some (f (← Term.parseLiteral)))
      (do return some (f (← Term.parseLiteral))) (Ends most) :=
  (Sparing.follows spares).map fun term _ _ behind => .plain (plain term) behind le

theorem follows_parseBuiltin :
    Follows cursor other (do return some (← parseBuiltin)) (do return some (← parseBuiltin))
      (Ends size) := by
  rw [parseBuiltin, bind_assoc]
  refine (follows_expect spares (by decide) _).bind fun dot after last moved => ?_
  obtain ⟨fewer, less, behind⟩ := moved.2.shortens (by decide)
  rw [bind_assoc]
  refine follows_peek behind fun _ => ?_
  split
  · exact follows_throw _
  · rw [bind_assoc]
    exact follows_literal behind (endsWithBrace_ofLiteral .builtin) (Nat.le_of_lt less)

/-- A relation is no brace. -/
theorem follows_parseBehind (first : Token) (left : Term) :
    Follows cursor other (do return some (← parseBehind first left))
      (do return some (← parseBehind first left)) (Ends size) := by
  rw [parseBehind, bind_assoc]
  refine follows_peek spares fun _ => ?_
  cases found : Formula.relation? cursor.token.kind with
  | none =>
    dsimp only
    split
    · exact follows_pure (.plain rfl spares (Nat.le_refl _))
    · exact follows_throw _
  | some relation =>
    have relates {kind : Kind} (none : Formula.relation? kind = none) : cursor.token.kind ≠ kind := by
      rintro rfl
      cases none.symm.trans found
    dsimp only
    rw [bind_assoc]
    refine (follows_advance spares (relates rfl)).bind fun _ after last moved => ?_
    obtain ⟨fewer, less, behind⟩ := moved.2.shortens (relates rfl)
    rw [bind_assoc]
    exact (Sparing.follows behind).map fun _ _ _ behind => .plain rfl behind (Nat.le_of_lt less)

theorem follows_parseCall :
    Follows cursor other (do return some (← parseCall)) (do return some (← parseCall))
      (Ends size) := by
  rw [parseCall, bind_assoc]
  refine follows_peek spares fun _ => ?_
  rw [bind_assoc]
  exact (Sparing.follows spares).bind fun left after last behind => follows_parseBehind behind _ left

end Parts

section Blocks

/-- Two parsers of blocks follow each other where fewer tokens are ahead than a bound. -/
def BodiesFollow (bound : Nat) (body body' : Parser (List Statement)) : Prop :=
  ∀ size < bound, ∀ cursor other : Cursor, cursor.Spares size other →
    Follows cursor other body body' fun _ => Cursor.Spares size

variable {bound : Nat} {body body' : Parser (List Statement)} (bodies : BodiesFollow bound body body')

section Parts

variable (spares : cursor.Spares size other) (short : size ≤ bound)

include bodies spares short

theorem follows_parseBlock :
    Follows cursor other (parseBlock body) (parseBlock body')
      fun _ => Cursor.Passed .closeBrace size := by
  rw [parseBlock, parseBlock]
  refine (follows_expect spares (by decide) _).bind fun _ after last moved => ?_
  obtain ⟨fewer, less, behind⟩ := moved.2.shortens (by decide)
  refine (follows_accept behind (by decide)).bind fun found after last behind => ?_
  cases found with
  | true => exact follows_pure (Cursor.Passed.mono behind (Nat.le_of_lt less))
  | false =>
    refine (bodies fewer (by omega) after last behind).bind fun statements after last behind => ?_
    exact (follows_expect behind (by decide) _).map fun _ _ _ moved =>
      moved.2.mono (Nat.le_of_lt less)

theorem follows_parseLoop :
    Follows cursor other (parseLoop body) (parseLoop body') fun statement after last =>
      endsWithBrace (some statement) = true ∧ after.Passed .closeBrace size last := by
  rw [parseLoop, parseLoop]
  refine (Sparing.follows spares).bind fun condition after last behind => ?_
  exact (follows_parseBlock bodies behind short).map fun _ _ _ passed => ⟨rfl, passed⟩

theorem follows_parseBranch (fuel fuel' : Nat) (enough : size < fuel) (enough' : size < fuel') :
    Follows cursor other (parseBranch body fuel) (parseBranch body' fuel')
      fun statement after last =>
        endsWithBrace (some statement) = true ∧ after.Passed .closeBrace size last := by
  induction fuel generalizing fuel' size cursor other with
  | zero => exact absurd enough (Nat.not_lt_zero _)
  | succ fuel ih =>
    obtain ⟨fuel', rfl⟩ := Nat.exists_eq_add_one_of_ne_zero (Nat.ne_zero_of_lt enough')
    rw [parseBranch, parseBranch]
    simp only [pure_bind]
    refine (follows_expect spares (by decide) _).bind fun _ after last moved => ?_
    obtain ⟨size₁, less₁, behind⟩ := moved.2.shortens (by decide)
    refine (Sparing.follows behind).bind fun condition after last behind => ?_
    refine (follows_parseBlock bodies behind (by omega)).bind fun positive after last passed => ?_
    obtain ⟨size₂, less₂, beyond, -⟩ := passed
    refine (follows_accept_beyond beyond (by decide) (by decide)).bind
      fun found after last behind => ?_
    cases found with
    | false => exact follows_pure ⟨rfl, Cursor.Beyond.passed behind (by omega)⟩
    | true =>
      obtain ⟨size₃, less₃, behind⟩ := Cursor.Passed.shortens behind (by decide)
      refine (follows_check behind .ifWord).bind fun another after last checked => ?_
      have behind := checked.2
      split
      · refine (ih behind (by omega) fuel' (by omega) (by omega)).bind fun inner _ _ passed => ?_
        exact follows_pure ⟨rfl, passed.2.mono (by omega)⟩
      · refine (follows_parseBlock bodies behind (by omega)).bind fun negative _ _ passed => ?_
        exact follows_pure ⟨rfl, passed.mono (by omega)⟩

theorem follows_parseWith :
    Follows cursor other (parseWith body) (parseWith body') (Ends size) := by
  rw [parseWith, parseWith]
  refine follows_peek spares fun _ => ?_
  have marked {kind : Kind} (mark : cursor.token.kind = kind) (inside : kind ≠ .endOfInput)
      (inner : kind ≠ .closeBrace) {f : Term → Statement}
      (plain : ∀ term, endsWithBrace (some (f term)) = false) :
      Follows cursor other (do let _ ← advance; return some (f (← Term.parseLiteral)))
        (do let _ ← advance; return some (f (← Term.parseLiteral))) (Ends size) := by
    refine (follows_advance spares (mark ▸ inside)).bind fun _ after last moved => ?_
    obtain ⟨fewer, less, behind⟩ := moved.2.shortens (mark ▸ inner)
    exact follows_literal behind plain (Nat.le_of_lt less)
  split
  case h_1 mark | h_2 mark | h_3 mark | h_4 mark | h_5 mark | h_6 mark =>
    exact marked mark (by decide) (by decide) fun _ => rfl
  next => exact follows_parseBuiltin spares
  next =>
    refine follows_budget spares fun fuel fuel' enough enough' => ?_
    have fits := spares.fits
    exact (follows_parseBranch bodies spares.tight (by omega) fuel fuel' enough enough').map
      fun _ _ _ behind => .braced behind fits
  next mark =>
    refine (follows_advance spares (by simp [mark])).bind fun _ after last moved => ?_
    obtain ⟨fewer, less, behind⟩ := moved.2.shortens (by simp [mark])
    exact (follows_parseLoop bodies behind (by omega)).map
      fun _ _ _ behind => .braced behind (Nat.le_of_lt less)
  next word =>
    refine follows_peekSecond spares (by simp [word]) (by simp [word]) ?_
    split
    · refine (follows_advance spares (by simp [word])).map fun _ after last moved => ?_
      obtain ⟨fewer, less, behind⟩ := moved.2.shortens (by simp [word])
      exact .plain rfl behind (Nat.le_of_lt less)
    · exact follows_parseCall spares
  next => exact follows_parseCall spares

end Parts

/-- If another statement follows, there is less ahead. -/
def GoesOn (size : Nat) (more : Bool) (after last : Cursor) : Prop :=
  if more then after.Shortens size last else after.Spares size last

/-- Behind the same tokens both runs see the same ones. -/
theorem follows_parseMore_together {fewer : Nat} {first : Option Statement}
    (spares : cursor.Spares fewer other) (le : fewer ≤ size)
    (less : endsWithBrace first = true → fewer < size) :
    Follows cursor other (parseMore first) (parseMore first) (GoesOn size) := by
  rw [parseMore]
  refine (follows_accept spares (by decide)).bind fun found after last behind => ?_
  cases found with
  | true =>
    obtain ⟨least, below, behind⟩ := Cursor.Passed.shortens behind (by decide)
    refine (follows_check behind .closeBrace).map fun closes _ _ checked => ?_
    cases closes with
    | true => exact checked.2.mono (by omega)
    | false => exact ⟨least, by omega, checked.2⟩
  | false =>
    cases braced : endsWithBrace first with
    | false => exact follows_pure (Cursor.Spares.mono behind le)
    | true =>
      refine (follows_check behind .dot).bind fun stops after last checked => ?_
      refine (follows_check checked.2 .closeBrace).map fun closes _ _ checked => ?_
      cases stops || closes with
      | true => exact checked.2.mono le
      | false => exact ⟨fewer, less braced, checked.2⟩

/-- The first run goes on because of the semicolon, and the second one because of the brace. -/
theorem follows_parseMore_straddling {fewer : Nat} {first : Option Statement}
    (straddles : cursor.Straddles fewer other) (less : fewer < size)
    (braced : endsWithBrace first = true) :
    Follows cursor other (parseMore first) (parseMore first) (GoesOn size) := by
  have here : accept .semicolon cursor = (.ok true, other) :=
    straddles.behind ▸ run_accept_true straddles.formed_semicolon straddles.semicolon
  have there : accept .semicolon other = (.ok false, other) :=
    run_accept_false straddles.formed (straddles.other_ne rfl)
  have noStop : check .dot other = (.ok false, other) := by
    rw [run_check straddles.formed, decide_eq_false (straddles.other_ne rfl)]
  have closing : Follows other other (check .closeBrace >>= fun closes => pure !closes)
      (check .closeBrace >>= fun closes => pure !closes) (GoesOn size) := by
    refine (follows_check straddles.rejoins .closeBrace).map fun closes _ _ checked => ?_
    cases closes with
    | true => exact checked.2.mono (Nat.le_of_lt less)
    | false => exact ⟨fewer, less, checked.2⟩
  intro more after ran
  rw [parseMore, run_then here, if_pos rfl] at ran
  rw [parseMore, run_then there, if_neg Bool.false_ne_true, if_pos braced, run_then noStop]
  exact closing more after ran

/-- Whether another statement follows is the same in both runs. -/
theorem follows_parseMore {first : Option Statement} (ends : Ends size first cursor other) :
    Follows cursor other (parseMore first) (parseMore first) (GoesOn size) := by
  unfold Ends at ends
  split at ends
  next braced =>
    obtain ⟨fewer, less, spares | straddles, -⟩ := ends
    · exact follows_parseMore_together spares (Nat.le_of_lt less) fun _ => less
    · exact follows_parseMore_straddling straddles less braced
  next plain =>
    exact follows_parseMore_together ends (Nat.le_refl size) fun braced => absurd braced plain

theorem follows_parseSequence {statement statement' : Parser (Option Statement)}
    (each : ∀ size ≤ bound, ∀ cursor other : Cursor, cursor.Spares size other →
      Follows cursor other statement statement' (Ends size))
    (fuel fuel' : Nat) (spares : cursor.Spares size other) (short : size ≤ bound)
    (enough : size < fuel) (enough' : size < fuel') :
    Follows cursor other (parseSequence statement fuel) (parseSequence statement' fuel')
      fun _ => Cursor.Spares size := by
  induction fuel generalizing fuel' size cursor other with
  | zero => exact absurd enough (Nat.not_lt_zero _)
  | succ fuel ih =>
    obtain ⟨fuel', rfl⟩ := Nat.exists_eq_add_one_of_ne_zero (Nat.ne_zero_of_lt enough')
    rw [parseSequence, parseSequence]
    refine (each size short cursor other spares).bind fun first after last ends => ?_
    refine (follows_parseMore ends).bind fun more after last behind => ?_
    cases more with
    | false => exact follows_pure behind
    | true =>
      obtain ⟨fewer, less, behind⟩ := behind
      refine (ih fuel' behind (by omega) (by omega) (by omega)).map fun rest _ _ behind => ?_
      exact behind.mono (Nat.le_of_lt less)

end Blocks

/-- A block holds fewer tokens than what it stands in, so the depth of both runs is enough. -/
theorem bodiesFollow_parseBodyWithin (bound depth depth' : Nat) (enough : bound ≤ depth)
    (enough' : bound ≤ depth') :
    BodiesFollow bound (parseBodyWithin depth) (parseBodyWithin depth') := by
  induction bound generalizing depth depth' with
  | zero => exact fun size short => absurd short (Nat.not_lt_zero _)
  | succ bound ih =>
    obtain ⟨depth, rfl⟩ := Nat.exists_eq_add_one_of_ne_zero (Nat.ne_zero_of_lt enough)
    obtain ⟨depth', rfl⟩ := Nat.exists_eq_add_one_of_ne_zero (Nat.ne_zero_of_lt enough')
    have bodies := ih depth depth' (by omega) (by omega)
    intro size short cursor other spares
    rw [parseBodyWithin, parseBodyWithin]
    refine follows_budget spares fun fuel fuel' enoughFuel enoughFuel' => ?_
    have fits := spares.fits
    refine (follows_parseSequence (fun size short cursor other spares =>
      follows_parseWith bodies spares short) fuel fuel' spares.tight (by omega) enoughFuel
        enoughFuel').mono fun _ _ _ behind => behind.mono fits

instance : Sparing parseBody := by
  refine ⟨fun {size cursor other} spares => ?_⟩
  rw [parseBody]
  refine follows_budget spares fun depth depth' enough enough' => ?_
  exact (bodiesFollow_parseBodyWithin _ depth depth' enough enough' _ (Nat.lt_succ_self _) cursor
    other spares.tight).mono fun _ _ _ behind => behind.mono spares.fits

end Statement

namespace Plan

instance : Sparing parseLabel := by
  have label : Sparing (accept .label) := sparing_accept (by decide) (by decide)
  unfold parseLabel
  infer_instance

instance : Sparing parseContext := by
  have colon : Sparing (accept .colon) := sparing_accept (by decide) (by decide)
  unfold parseContext
  infer_instance

instance : Sparing parseBody := by
  have arrow : Sparing (accept .planArrow) := sparing_accept (by decide) (by decide)
  unfold parseBody
  infer_instance

instance : Shortening parse := by
  unfold parse
  infer_instance

end Plan

namespace Clause

instance : Shortening parseGoal := by
  unfold parseGoal
  infer_instance

instance : Shortening parseRuleOrBelief := by
  have arrow : Sparing (accept .ruleArrow) := sparing_accept (by decide) (by decide)
  unfold parseRuleOrBelief
  infer_instance

instance : Shortening parse := by
  refine ⟨fun {size cursor other} spares => follows_peek spares fun _ => ?_⟩
  split
  next mark =>
    refine (follows_advance spares (by simp [mark])).bind fun _ after last moved => ?_
    obtain ⟨fewer, less, behind⟩ := moved.2.shortens (by simp [mark])
    refine (Shortening.shortens behind).mono fun _ _ _ shortens => ?_
    obtain ⟨least, below, behind⟩ := shortens
    exact ⟨least, by omega, behind⟩
  all_goals exact Shortening.shortens spares

theorem parseStrictly_nil (fuel : Nat) {cursor : Cursor} (none : cursor.upcoming.isEmpty = true) :
    parseStrictly fuel cursor = .ok [] := by
  cases fuel <;> simp [parseStrictly, none]

/-- Clauses that are read without a problem are read without the semicolon as well. -/
theorem parseStrictly_spares (fuel fuel' : Nat) {size : Nat} {cursor other : Cursor}
    {clauses : List Clause} (spares : cursor.Spares size other) (enough : size ≤ fuel)
    (enough' : size ≤ fuel') (done : parseStrictly fuel cursor = .ok clauses) :
    parseStrictly fuel' other = .ok clauses := by
  have fits := spares.fits
  have empty := spares.upcoming.isEmpty_eq
  induction fuel generalizing fuel' size cursor other clauses with
  | zero =>
    have none : other.upcoming.isEmpty = true :=
      List.isEmpty_iff_length_eq_zero.mpr (by omega)
    rw [parseStrictly_nil fuel' none]
    exact done
  | succ fuel ih =>
    rw [parseStrictly] at done
    split at done
    next none => exact (parseStrictly_nil fuel' (empty.trans none)).trans done
    next some =>
      have nonempty : other.upcoming ≠ [] := by simpa [← empty] using some
      have positive := List.length_pos_of_ne_nil nonempty
      obtain ⟨fuel', rfl⟩ := Nat.exists_eq_add_one_of_ne_zero (show fuel' ≠ 0 by omega)
      rw [parseStrictly, if_neg (empty ▸ some)]
      rcases ran : parse cursor with ⟨problem | clause, after⟩
      · rw [ran] at done
        cases done
      · obtain ⟨last, ran', fewer, less, behind⟩ := Shortening.shortens spares clause after ran
        rw [ran] at done
        rw [ran']
        dsimp only at done ⊢
        cases rest : parseStrictly fuel after with
        | error problem =>
          rw [rest] at done
          cases done
        | ok others =>
          rw [rest] at done
          rw [ih fuel' behind (by omega) (by omega) rest behind.fits behind.upcoming.isEmpty_eq]
          exact done

end Clause

namespace Program

variable {text text' : String} {reading : Reading} {front rest : List Token}
  {brace semicolon next : Token}

/-- A semicolon behind a block may be left out, unless a built-in action follows. What begins another
statement is neither a semicolon nor the word `else`. -/
theorem read_erased
    (tokens : (Source.tokenize text).significant.tokens =
      front ++ brace :: semicolon :: next :: rest)
    (closes : brace.kind = .closeBrace) (separates : semicolon.kind = .semicolon)
    (resumes : next.kind.resumes = true)
    (erased : text'.toList = text.toList.eraseIdx semicolon.position.offset)
    (accepted : read text true = .ok reading) : read text' true = .ok reading := by
  have scanned : Source.scan .start text.toList = front ++ brace :: semicolon :: next :: rest :=
    tokens
  have accepted : readStrict text = .ok reading := accepted
  have formed := formed_of_readStrict accepted
  rw [scanned] at formed
  have likewise := Source.scan_erased scanned closes separates fun token member =>
    formed token (List.mem_append_left _ member)
  rw [← erased] at likewise
  let between : Cursor := ⟨front ++ brace :: next :: rest, Source.finishOf text, 0⟩
  have start : Source.Parser.start text =
      ⟨front ++ brace :: semicolon :: next :: rest, Source.finishOf text, 0⟩ := by
    rw [Source.start_eq, scanned]
  have sound := sound_start text
  have spares : (Source.Parser.start text).Spares between.upcoming.length between := by
    rw [start] at sound ⊢
    exact ⟨.append (.spare rest closes separates (formed next (by simp)) resumes) front, rfl, rfl,
      sound, Nat.le_refl _⟩
  have like : between.Like (Source.Parser.start text') := by
    rw [Source.start_eq]
    exact ⟨likewise, ⟨rfl, rfl, rfl⟩, rfl, rfl⟩
  show readStrict text' = .ok reading
  rw [readStrict] at accepted ⊢
  split at accepted
  next clauses done =>
    have shorter := Clause.parseStrictly_spares _ between.upcoming.length spares
      (start ▸ spares.upcoming.length_le) (Nat.le_refl _) done
    rw [like.upcoming.length_eq, Clause.parseStrictly_like _ like shorter]
    exact accepted
  next => cases accepted

/-- A full stop with the name of an action right behind it ends the plan behind a block, and what
follows is read as a belief. -/
theorem read_ends_plan :
    ∃ whole cut : Reading,
      read "+!g<-if(a)\x7b+b\x7d;.print(x)." true = .ok whole ∧
        read "+!g<-if(a)\x7b+b\x7d.print(x)." true = .ok cut ∧
        whole.program.beliefs = [] ∧ cut.program.beliefs = [.compound "print" [.atom "x"]] := by
  refine ⟨⟨⟨[], [], [], [⟨⟨.addition, .achievement, .atom "g"⟩, .truth,
      [.branch (.literal (.atom "a")) [.add (.atom "b")] [], .action .builtin "print" [.atom "x"]],
      none⟩]⟩, []⟩, ⟨⟨[.compound "print" [.atom "x"]], [], [],
      [⟨⟨.addition, .achievement, .atom "g"⟩, .truth,
        [.branch (.literal (.atom "a")) [.add (.atom "b")] []], none⟩]⟩, []⟩, ?_, ?_, rfl, rfl⟩
  · rfl
  · rfl

end Program

end AgentSpeak
