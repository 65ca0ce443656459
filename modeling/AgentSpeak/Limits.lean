namespace AgentSpeak

/-- How deep proofs may go, how many statements an intention may run, and whether unification checks
that no variable is bound to a term that contains it. -/
structure Limits where
  maxDepth : Int := 200
  maxSteps : Int := 10000
  occursCheck : Bool := false
  deriving DecidableEq, Repr

instance : Inhabited Limits := ⟨{}⟩

end AgentSpeak
