import AgentSpeak.Program.Parser
import AgentSpeak.Proofs.Formula.Reading
import AgentSpeak.Proofs.Source.Orderly

namespace AgentSpeak

open Source (Token Kind Parser Cursor)
open Source.Parser

theorem Term.rereads_parse :
    Rereads parse fun shift term copy => copy = term.rename (.renumber (· + shift)) :=
  fun _ fit _ spelled w p q paired =>
    (reads_parse fit spelled (p.length + 1) w p q paired (Nat.lt_succ_self _)).mono
      fun _ _ _ _ copied => copied.same

theorem Term.rereads_parseLiteral :
    Rereads parseLiteral fun shift term copy => copy = term.rename (.renumber (· + shift)) :=
  fun _ fit _ spelled w p q paired =>
    (reads_literal fit spelled (reads_parse fit spelled p.length) w p q paired
      (Nat.lt_succ_self _)).mono fun _ _ _ _ copied => copied.same

theorem Formula.rereads_parse :
    Rereads parse fun shift formula copy => copy = formula.rename (.renumber (· + shift)) :=
  fun _ fit alike spelled w p q paired =>
    (reads_parse fit alike spelled (p.length + 1) w p q paired (Nat.lt_succ_self _)).mono
      fun _ _ _ _ copied => copied.same

variable {allowed : Token → Prop}

instance : Orderly allowed Term.parse := Term.rereads_parse.orderly

instance : Orderly allowed Term.parseLiteral := Term.rereads_parseLiteral.orderly

instance : Orderly allowed Formula.parse := Formula.rereads_parse.orderly

instance : Orderly allowed Trigger.parseSubject := by
  unfold Trigger.parseSubject
  infer_instance

instance : Orderly allowed Trigger.parseChange := by
  unfold Trigger.parseChange
  infer_instance

instance : Orderly allowed Trigger.parse := by
  unfold Trigger.parse
  infer_instance

namespace Statement

variable {body : Parser (List Statement)} [∀ allowed, Orderly allowed body]

instance : Orderly allowed parseCondition := by
  unfold parseCondition
  infer_instance

instance : Orderly allowed (parseBlock body) := by
  unfold parseBlock
  infer_instance

set_option synthInstance.maxSize 256 in
instance (fuel : Nat) : Orderly allowed (parseBranch body fuel) := by
  induction fuel with
  | zero =>
    unfold parseBranch
    infer_instance
  | succ fuel ih =>
    unfold parseBranch
    dsimp only
    infer_instance

instance : Orderly allowed (parseLoop body) := by
  unfold parseLoop
  infer_instance

instance : Orderly allowed parseBuiltin := by
  refine ⟨fun cursor sound => OrderlyAt.bind sound (Orderly.orderlyAt cursor sound) ?_⟩
  intro dot after sound'
  refine orderlyAt_peek fun _ => ?_
  split
  · exact orderlyAt_throw (.inr rfl)
  · exact Orderly.orderlyAt after sound'

theorem orderlyAt_parseBehind {cursor : Cursor} (sound : cursor.Sound) {first : Token}
    (own : allowed first) (left : Term) : OrderlyAt allowed cursor (parseBehind first left) := by
  refine orderlyAt_peek fun _ => ?_
  split
  · exact Orderly.orderlyAt cursor sound
  · split
    · exact orderlyAt_pure _
    · exact orderlyAt_throw (.inl own)

instance (first : Token) (left : Term) : Orderly anyToken (parseBehind first left) :=
  ⟨fun _ sound => orderlyAt_parseBehind sound trivial left⟩

instance : Orderly allowed parseCall := by
  refine ⟨fun cursor sound => orderlyAt_peek fun _ => ?_⟩
  refine OrderlyAt.bind sound (Orderly.orderlyAt cursor sound) fun left after sound' => ?_
  exact orderlyAt_parseBehind sound' (.inr rfl) left

instance : Orderly allowed (parseWith body) := by
  refine ⟨fun cursor sound => orderlyAt_peek fun _ => ?_⟩
  split
  case h_10 word =>
    have inner : cursor.token.kind ≠ .dot := by simp [word]
    refine OrderlyAt.bind sound (orderlyAt_peekSecond inner) fun second after sound' => ?_
    split <;> exact Orderly.orderlyAt after sound'
  all_goals exact Orderly.orderlyAt cursor sound

instance (first : Option Statement) : Orderly allowed (parseMore first) := by
  unfold parseMore
  infer_instance

instance {statement : Parser (Option Statement)} [∀ allowed, Orderly allowed statement]
    (fuel : Nat) : Orderly allowed (parseSequence statement fuel) := by
  induction fuel with
  | zero =>
    unfold parseSequence
    infer_instance
  | succ fuel ih =>
    unfold parseSequence
    infer_instance

instance (depth : Nat) : Orderly allowed (parseBodyWithin depth) := by
  induction depth generalizing allowed with
  | zero =>
    unfold parseBodyWithin
    infer_instance
  | succ depth ih =>
    unfold parseBodyWithin
    infer_instance

instance : Orderly allowed parseBody := by
  unfold parseBody
  infer_instance

end Statement

instance : Orderly allowed Plan.parseLabel := by
  unfold Plan.parseLabel
  infer_instance

instance : Orderly allowed Plan.parseContext := by
  unfold Plan.parseContext
  infer_instance

instance : Orderly allowed Plan.parseBody := by
  unfold Plan.parseBody
  infer_instance

instance : Orderly allowed Plan.parse := by
  unfold Plan.parse
  infer_instance

instance : Closing Plan.parse := by
  unfold Plan.parse
  infer_instance

namespace Clause

instance : Orderly allowed parseGoal := by
  unfold parseGoal
  infer_instance

instance : Closing parseGoal := by
  unfold parseGoal
  infer_instance

instance : Orderly allowed parseRuleOrBelief := by
  refine ⟨fun cursor sound => orderlyAt_peek fun _ => ?_⟩
  refine OrderlyAt.bind sound (Orderly.orderlyAt cursor sound) fun head after sound' => ?_
  refine OrderlyAt.bind sound' (Orderly.orderlyAt after sound') fun found last sound'' => ?_
  split
  · exact Orderly.orderlyAt last sound''
  · split
    · exact orderlyAt_throw (.inr rfl)
    · exact Orderly.orderlyAt last sound''

instance : Closing parseRuleOrBelief := by
  unfold parseRuleOrBelief
  infer_instance

instance : Orderly allowed parse := by
  refine ⟨fun cursor sound => orderlyAt_peek fun _ => ?_⟩
  split <;> exact Orderly.orderlyAt cursor sound

instance : Closing parse := by
  have each (first : Token) : Closing (match first.kind with
      | .bang => advance >>= fun _ => parseGoal
      | .label | .plus | .minus => Plan.parse >>= fun defined => pure (.plan defined)
      | _ => parseRuleOrBelief) := by
    split <;> infer_instance
  exact inferInstanceAs (Closing (peek >>= _))

end Clause

end AgentSpeak
