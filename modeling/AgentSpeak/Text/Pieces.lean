namespace AgentSpeak.Text

/-- The pieces between the occurrences of a separator; there is always at least one. -/
def pieces (separator : Char) : List Char → List (List Char)
  | [] => [[]]
  | c :: rest =>
      if c = separator then [] :: pieces separator rest
      else match pieces separator rest with
        | [] => [[c]]
        | piece :: others => (c :: piece) :: others

theorem pieces_ne_nil (separator : Char) (text : List Char) : pieces separator text ≠ [] := by
  cases text with
  | nil => simp [pieces]
  | cons c rest =>
    unfold pieces
    split
    · simp
    · split <;> simp

/-- The texts between the occurrences of a separator. -/
def cut (separator : Char) (text : String) : List String :=
  (pieces separator text.toList).map String.ofList

/-- The lines of a text, without the line ends. -/
def lines (text : String) : List String :=
  cut '\n' text

end AgentSpeak.Text
