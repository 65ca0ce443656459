import AgentSpeak.Fault

namespace AgentSpeak

variable {ε α β : Type} {result : Except ε α} {value : β}

theorem bind_eq_ok_iff {next : α → Except ε β} :
    result >>= next = .ok value ↔ ∃ middle, result = .ok middle ∧ next middle = .ok value := by
  cases result with
  | error fault =>
    constructor
    · intro done
      cases done
    · rintro ⟨middle, done, -⟩
      cases done
  | ok middle =>
    constructor
    · intro done
      exact ⟨middle, rfl, done⟩
    · rintro ⟨_, ⟨⟩, done⟩
      exact done

theorem map_eq_ok_iff {f : α → β} :
    result.map f = .ok value ↔ ∃ middle, result = .ok middle ∧ f middle = value := by
  cases result with
  | error fault => simp [Except.map]
  | ok middle => simp [Except.map]

theorem toOption_eq_some_iff {own : α} : result.toOption = some own ↔ result = .ok own := by
  cases result <;> simp [Except.toOption]

theorem toOption_bind (result : Except ε α) (next : α → Except ε β) :
    (result >>= next).toOption = result.toOption.bind fun middle => (next middle).toOption := by
  cases result <;> rfl

theorem toOption_map (result : Except ε α) (f : α → β) :
    (result.map f).toOption = result.toOption.map f := by
  cases result <;> rfl

end AgentSpeak
