import AgentSpeak.Proofs.Source.Malformed
import AgentSpeak.Proofs.Term.Accepting

namespace AgentSpeak.Term

open Source (Parser Token Problem)
open Source.Parser

section Steps

variable {expression : Parser Term} [Steady expression]

instance (functor : String) : Steady (parseArguments expression functor) := by
  unfold parseArguments
  infer_instance

instance : Steady (parseLiteralWith expression) := by
  unfold parseLiteralWith
  refine Steady.bind inferInstance fun token => ?_
  split <;> infer_instance

instance : Steady (parseListWith expression) := by
  unfold parseListWith
  refine Steady.bind inferInstance fun closed => ?_
  split
  next => infer_instance
  next =>
    refine Steady.bind inferInstance fun fuel => ?_
    refine Steady.bind inferInstance fun items => ?_
    refine Steady.bind inferInstance fun more => ?_
    dsimp only
    split <;> infer_instance

instance (token : Token) : Steady (numberOf token) := by
  unfold numberOf
  split <;> infer_instance

instance : Steady (parsePrimaryWith expression) := by
  unfold parsePrimaryWith
  refine Steady.bind inferInstance fun token => ?_
  split <;> infer_instance

instance (fuel : Nat) : Steady (parseUnary expression fuel) := by
  induction fuel with
  | zero => exact inferInstanceAs (Steady expression)
  | succ fuel ih =>
    unfold parseUnary
    infer_instance

instance (fuel : Nat) : Steady (parsePower expression fuel) := by
  induction fuel with
  | zero => exact inferInstanceAs (Steady expression)
  | succ fuel ih =>
    unfold parsePower
    infer_instance

end Steps

instance (depth : Nat) : Steady (parseWithin depth) := by
  induction depth with
  | zero => exact inferInstanceAs (Steady (fail .term))
  | succ depth ih =>
    unfold parseWithin
    infer_instance

instance : Steady parse := by
  unfold parse
  infer_instance

/-- What is left behind a term has been looked at. -/
theorem parse_looks {cursor after : Source.Cursor} {term : Term} (some : 0 < after.upcoming.length)
    (done : parse cursor = (.ok term, after)) : after.token.problem? = none := by
  rw [parse, run_then (run_budget cursor)] at done
  exact chain_looks some done

/-- A term is read up to a malformed token, and the token is reported. -/
theorem Expression.reports {w c : Nat} {tokens rest : List Token} {bad finish : Token} {term : Term}
    {problem : Problem} (expression : Expression w tokens term)
    (formed : ∀ token ∈ tokens, token.problem? = none) (malformed : bad.problem? = some problem) :
    Reports parse ⟨tokens ++ bad :: rest, finish, c⟩ problem := by
  let dot : Token := ⟨.dot, [], bad.position, true⟩
  have stops : Source.Kind.dot ∉ expressionCarriers := by decide
  have given := (expression.recount c).parsed formed (dot :: rest) finish rfl stops
  have steady : Steady parse := inferInstance
  rcases steady.meets malformed dot tokens rest finish c with
    reports | ⟨outcome, left, count, ran, ran'⟩
  · exact reports
  · rw [given] at ran
    obtain ⟨rfl, same⟩ := Prod.mk.inj ran
    have none : left = [] := by
      have lengths := congrArg (List.length ·.upcoming) same
      simpa using lengths
    subst none
    have some : 0 < ([] ++ bad :: rest).length := Nat.succ_pos _
    have looked : bad.problem? = none := parse_looks some ran'
    cases malformed.symm.trans looked

end AgentSpeak.Term
