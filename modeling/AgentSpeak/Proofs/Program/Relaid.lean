import AgentSpeak.Proofs.Program.Segments
import AgentSpeak.Proofs.Source.Relaid

/-!
Programs laid out anew. No parser of a program looks at places but that of built-in actions, which asks
whether a name stands right behind a full stop; so a program is read the same from a text that is laid
out anew.
-/

namespace AgentSpeak

open Source (Token Kind Parser Cursor Problem Relaid lex scan spaced)
open Source.Parser

namespace Term

variable {expression : Parser Term} [Placeless expression]

instance (functor : String) : Placeless (parseArguments expression functor) := by
  unfold parseArguments
  infer_instance

instance : Placeless (parseLiteralWith expression) := by
  unfold parseLiteralWith
  refine placeless_peek (fun token other like => by simp only [like.kind, like.text]) fun token => ?_
  split <;> infer_instance

instance : Placeless (parseListWith expression) := by
  unfold parseListWith
  infer_instance

theorem together_numberOf {token other : Token} (like : token.Like other) :
    Together (numberOf token) (numberOf other) := by
  cases read : Number.read? token.text with
  | some value =>
    rw [numberOf_read read, numberOf_read (like.text ▸ read)]
    exact Placeless.together
  | none =>
    rw [numberOf_unread read, numberOf_unread (like.text ▸ read)]
    exact together_throw rfl

instance : Placeless (parsePrimaryWith expression) := by
  unfold parsePrimaryWith
  refine ⟨together_peek fun token other like => ?_⟩
  rw [like.kind, like.text]
  split
  case h_1 => exact fun _ _ moved => same_advance moved (together_numberOf like _ _ moved.behind)
  all_goals exact Placeless.together

instance {primary : Parser Term} [Placeless primary] (fuel : Nat) :
    Placeless (parseUnary primary fuel) := by
  induction fuel with
  | zero => assumption
  | succ fuel ih =>
    unfold parseUnary
    infer_instance

instance {unary : Parser Term} [Placeless unary] (fuel : Nat) :
    Placeless (parsePower unary fuel) := by
  induction fuel with
  | zero => assumption
  | succ fuel ih =>
    unfold parsePower
    infer_instance

instance (depth : Nat) : Placeless (parseWithin depth) := by
  induction depth with
  | zero =>
    unfold parseWithin
    infer_instance
  | succ depth ih =>
    unfold parseWithin
    infer_instance

instance : Placeless parse := by
  unfold parse
  infer_instance

instance : Placeless parseLiteral := by
  unfold parseLiteral
  infer_instance

end Term

namespace Formula

instance (left : Term) : Placeless (parseRelation? left) := by
  unfold parseRelation?
  refine placeless_peek (fun token other like => by simp only [like.kind]) fun token => ?_
  split <;> infer_instance

/-- The token that a problem would lie at is another one, but the problem is there all the same. -/
instance : Placeless parseAtomic := by
  refine ⟨together_peek fun first first' _ => ?_⟩
  refine Placeless.together.bind fun left => Placeless.together.bind fun found => ?_
  cases found with
  | some formula => exact Placeless.together
  | none =>
    dsimp only
    split
    · exact Placeless.together
    · exact together_throw rfl

variable {formula : Parser Formula} [Placeless formula]

instance : Placeless (parseGroup? formula) := by
  have looking (inner : Formula) : Placeless (peek >>= fun next =>
      if ((relation? next.kind).isSome || Term.isArithmetic next.kind) = true then pure none
      else pure (some inner)) :=
    placeless_peek (fun token other like => by simp only [like.kind]) fun _ => inferInstance
  unfold parseGroup?
  infer_instance

instance : Placeless (parseSimple formula) := by
  have chosen (found : Option Formula) : Placeless (match found with
      | some inner => pure inner
      | none => parseAtomic) := by
    split <;> infer_instance
  unfold parseSimple
  infer_instance

instance (fuel : Nat) : Placeless (parseNegation formula fuel) := by
  induction fuel with
  | zero =>
    unfold parseNegation
    infer_instance
  | succ fuel ih =>
    unfold parseNegation
    infer_instance

instance (depth : Nat) : Placeless (parseWithin depth) := by
  induction depth with
  | zero =>
    unfold parseWithin
    infer_instance
  | succ depth ih =>
    unfold parseWithin
    infer_instance

instance : Placeless parse := by
  unfold parse
  infer_instance

end Formula

namespace Trigger

instance : Placeless parseSubject := by
  unfold parseSubject
  infer_instance

instance : Placeless parseChange := by
  unfold parseChange
  infer_instance

instance : Placeless parse := by
  unfold parse
  infer_instance

end Trigger

namespace Statement

variable {body : Parser (List Statement)} [Placeless body]

/-- A built-in action's name is behind its full stop in both texts or in neither. -/
instance : Placeless parseBuiltin := by
  refine ⟨fun cursor other like => same_expect like fun dot => ?_⟩
  refine same_peek like.behind ?_
  have touches := like.touches dot
  split
  next apart =>
    rw [ne_eq, ne_eq, ← not_and_or, touches, not_and_or, ← ne_eq, ← ne_eq] at apart
    rw [if_pos apart]
    exact .error rfl like.behind
  next beside =>
    rw [ne_eq, ne_eq, ← not_and_or, touches, not_and_or, ← ne_eq, ← ne_eq] at beside
    rw [if_neg beside]
    exact Placeless.together _ _ like.behind

instance : Placeless parseCondition := by
  unfold parseCondition
  infer_instance

instance : Placeless (parseBlock body) := by
  unfold parseBlock
  infer_instance

set_option synthInstance.maxSize 256 in
instance (fuel : Nat) : Placeless (parseBranch body fuel) := by
  induction fuel with
  | zero =>
    unfold parseBranch
    infer_instance
  | succ fuel ih =>
    unfold parseBranch
    dsimp only
    infer_instance

instance : Placeless (parseLoop body) := by
  unfold parseLoop
  infer_instance

theorem together_parseBehind (first first' : Token) (left : Term) :
    Together (parseBehind first left) (parseBehind first' left) := by
  refine together_peek fun token other like => ?_
  rw [like.kind]
  split
  · exact Placeless.together
  · split
    · exact Placeless.together
    · exact together_throw rfl

instance : Placeless parseCall :=
  ⟨together_peek fun first first' _ =>
    Placeless.together.bind fun left => together_parseBehind first first' left⟩

instance : Placeless (parseWith body) := by
  have second : Placeless (peekSecond >>= fun second =>
      if endsStatement second.kind then advance >>= fun _ => pure none
      else parseCall >>= fun call => pure (some call)) :=
    placeless_peekSecond (fun token other like => by simp only [like.kind]) fun _ => inferInstance
  unfold parseWith
  refine placeless_peek (fun token other like => by simp only [like.kind]) fun token => ?_
  split <;> infer_instance

instance (first : Option Statement) : Placeless (parseMore first) := by
  unfold parseMore
  infer_instance

instance {statement : Parser (Option Statement)} [Placeless statement] (fuel : Nat) :
    Placeless (parseSequence statement fuel) := by
  induction fuel with
  | zero =>
    unfold parseSequence
    infer_instance
  | succ fuel ih =>
    unfold parseSequence
    infer_instance

instance (depth : Nat) : Placeless (parseBodyWithin depth) := by
  induction depth with
  | zero =>
    unfold parseBodyWithin
    infer_instance
  | succ depth ih =>
    unfold parseBodyWithin
    infer_instance

instance : Placeless parseBody := by
  unfold parseBody
  infer_instance

end Statement

namespace Plan

instance : Placeless parseLabel := by
  unfold parseLabel
  infer_instance

instance : Placeless parseContext := by
  unfold parseContext
  infer_instance

instance : Placeless parseBody := by
  unfold parseBody
  infer_instance

instance : Placeless parse := by
  unfold parse
  infer_instance

end Plan

namespace Clause

instance : Placeless parseGoal := by
  unfold parseGoal
  infer_instance

instance : Placeless parseRuleOrBelief := by
  refine ⟨together_peek fun first first' _ => ?_⟩
  refine Placeless.together.bind fun head => Placeless.together.bind fun found => ?_
  split
  · exact Placeless.together
  · split
    · exact together_throw rfl
    · exact Placeless.together

instance : Placeless parse := by
  unfold parse
  refine placeless_peek (fun token other like => by simp only [like.kind]) fun token => ?_
  split <;> infer_instance

/-- Clauses that are read without a problem are read from the same tokens at other places. -/
theorem parseStrictly_like (fuel : Nat) {cursor other : Cursor} {clauses : List Clause}
    (like : cursor.Like other) (done : parseStrictly fuel cursor = .ok clauses) :
    parseStrictly fuel other = .ok clauses := by
  induction fuel generalizing cursor other clauses with
  | zero => exact done
  | succ fuel ih =>
    have empty : other.upcoming.isEmpty = cursor.upcoming.isEmpty := by
      rw [Bool.eq_iff_iff, List.isEmpty_iff_length_eq_zero, List.isEmpty_iff_length_eq_zero,
        like.upcoming.length_eq]
    have same : Same (parse cursor) (parse other) := Placeless.together cursor other like
    rw [parseStrictly] at done ⊢
    rw [empty]
    split at done
    next none => exact (if_pos none).trans done
    next some =>
      rw [if_neg some]
      generalize parse cursor = run at done same
      generalize parse other = run' at same
      cases same with
      | error => cases done
      | @ok clause after last like' =>
        dsimp only at done ⊢
        cases rest : parseStrictly fuel after with
        | error problem =>
          rw [rest] at done
          cases done
        | ok others =>
          rw [rest] at done
          rw [ih like' rest]
          exact done

/-- Where all clauses are read without a problem, no token is malformed and the last one is a full
stop. -/
theorem closed_of_parseStrictly (fuel : Nat) {cursor : Cursor} {clauses : List Clause}
    (sound : cursor.Sound) (enough : cursor.upcoming.length ≤ fuel)
    (done : parseStrictly fuel cursor = .ok clauses) :
    (∀ token ∈ cursor.upcoming, token.problem? = none) ∧
      ∀ last ∈ cursor.upcoming.getLast?, last.kind = .dot := by
  induction fuel generalizing cursor clauses with
  | zero =>
    rw [List.length_eq_zero_iff.mp (Nat.le_zero.mp enough)]
    simp
  | succ fuel ih =>
    rw [parseStrictly] at done
    split at done
    next none =>
      rw [List.isEmpty_iff.mp none]
      simp
    next =>
      rcases ran : parse cursor with ⟨problem | clause, after⟩
      · rw [ran] at done
        cases done
      · rw [ran] at done
        obtain ⟨used, dot, passes, kind⟩ := Closing.closes cursor clause after sound ran
        cases rest : parseStrictly fuel after with
        | error problem =>
          simp only [rest] at done
          cases done
        | ok others =>
          have split := passes.split
          rw [split, List.length_append, List.length_append, List.length_singleton] at enough
          obtain ⟨formed, closed⟩ := ih (passes.sound sound) (by omega) rest
          rw [split]
          refine ⟨List.forall_mem_append.mpr ⟨passes.formed, formed⟩, fun last member => ?_⟩
          rw [List.getLast?_append] at member
          cases left : after.upcoming.getLast? with
          | none =>
            rw [left, List.getLast?_concat] at member
            exact Option.some.inj member ▸ kind
          | some own =>
            rw [left] at member
            exact Option.some.inj member ▸ closed own left

end Clause

namespace Program

variable {text text' : String} {reading : Reading}

/-- The tokens of a program without a problem: none is malformed, and the last one is a full stop. -/
theorem closed_of_readStrict (accepted : readStrict text = .ok reading) :
    (∀ token ∈ scan .start text.toList, token.problem? = none) ∧
      ∀ last ∈ (scan .start text.toList).getLast?, last.kind = .dot := by
  rw [readStrict] at accepted
  split at accepted
  next clauses done =>
    have closed := Clause.closed_of_parseStrictly _ (sound_start text) (Nat.le_refl _) done
    rw [Source.start_eq] at closed
    exact closed
  next => cases accepted

theorem formed_of_readStrict (accepted : readStrict text = .ok reading) :
    ∀ token ∈ scan .start text.toList, token.problem? = none :=
  (closed_of_readStrict accepted).1

theorem readStrict_relaid (relaid : Relaid text text') (accepted : readStrict text = .ok reading) :
    readStrict text' = .ok reading := by
  have likewise := relaid.scan (formed_of_readStrict accepted)
  have like : (Source.Parser.start text).Like (Source.Parser.start text') := by
    rw [Source.start_eq, Source.start_eq]
    exact ⟨likewise, ⟨rfl, rfl, rfl⟩, rfl, rfl⟩
  have length := like.upcoming.length_eq
  rw [readStrict] at accepted ⊢
  split at accepted
  next clauses done =>
    rw [length, Clause.parseStrictly_like _ like done]
    exact accepted
  next => cases accepted

/-- What is read strictly from a text is read from the text laid out anew as well, strictly or
not. -/
theorem read_relaid (relaid : Relaid text text') (accepted : read text true = .ok reading)
    (strict : Bool) : read text' strict = .ok reading := by
  have same : readStrict text' = .ok reading := readStrict_relaid relaid accepted
  cases strict with
  | true => exact same
  | false =>
    have lenient := readStrict_eq text'
    rw [same] at lenient
    split at lenient
    next => exact lenient.symm
    next => cases lenient

/-- White space and a comment come, a comment goes, and the built-in action keeps its name. -/
theorem read_relaid_action :
    Relaid "+a<-.b/**/;c." "+a <-\n.b # note\n ;c ." ∧
      ∃ reading, read "+a<-.b/**/;c." true = .ok reading ∧
        reading.program.plans.map Plan.body = [[.action .builtin "b" [], .action .user "c" []]] ∧
          ∀ strict, read "+a <-\n.b # note\n ;c ." strict = .ok reading := by
  have relaid : Relaid "+a<-.b/**/;c." "+a <-\n.b # note\n ;c ." := by
    refine ⟨[], (spaced (lex .start "+a<-.b/**/;c.".toList)).2.zipWith
      (fun entry gap => (entry.1, gap))
      [[], [' '], ['\n'], [], " # note\n ".toList, [], [' '], []], ?_, ?_, ?_⟩
    · decide
    · decide
    · decide
  have accepted : read "+a<-.b/**/;c." true = .ok ⟨⟨[], [], [],
      [⟨⟨.addition, .belief, .atom "a"⟩, .truth,
        [.action .builtin "b" [], .action .user "c" []], none⟩]⟩, []⟩ := by rfl
  exact ⟨relaid, _, accepted, rfl, read_relaid relaid accepted⟩

end Program

end AgentSpeak
