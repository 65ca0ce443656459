import AgentSpeak.Proofs.Source.Layout

namespace AgentSpeak.Source

variable {position : Position} {text : List Char} {front after : List Token}

namespace Lexeme

variable {c d : Char} {rest : List Char}

/-- A token of the kind of a punctuation mark is that mark. -/
theorem eq_of_punctuation {kind : Kind} (same : (next c rest).kind = kind)
    (listed : (d, kind) ∈ punctuation) : c = d := by
  subst same
  have names : ∀ kind ∈ nameKinds, ∀ entry ∈ punctuation, kind ≠ entry.2 := by decide
  have operators : ∀ sign ∈ Kind.operators, ∀ entry ∈ punctuation, sign.2 = entry.2 →
      sign.1.toList.head? = some entry.1 := by decide
  have others : ∀ entry ∈ punctuation, entry.2 ∉
      [Kind.whitespace, .number, .lineComment, .blockComment, .string, .unknown] := by decide
  have apart {kind : Kind} (listed : (d, kind) ∈ punctuation)
      (other : kind ∈ [Kind.whitespace, .number, .lineComment, .blockComment, .string, .unknown]) :
      c = d :=
    absurd other (others _ listed)
  refine @next_cases (fun lexeme => (d, lexeme.kind) ∈ punctuation → c = d) c rest
    ?_ ?_ ?_ ?_ ?_ ?_ ?_ listed
  · exact fun _ listed => apart listed (by simp [run])
  · exact fun _ listed => apart listed (by simp [number])
  · exact fun _ listed => absurd rfl (names _ (nameKind_mem _) _ listed)
  · exact fun _ listed => apart listed (by simp [run])
  · exact fun _ _ listed => apart listed (by simp)
  · intro _ listed
    rcases quote_kind rest with same | same <;> exact apart listed (by simp [same])
  · intro listed
    rcases operator_kind c rest with same | ⟨entry, member, same, head⟩
    · exact apart listed (by simp [same])
    · exact Option.some.inj (head.symm.trans (operators entry member _ listed same.symm))

/-- A skipped token that is no white space is the same before another text. -/
theorem next_again (skipped : (firstToken position c rest).isSkipped = true)
    (solid : (next c rest).kind ≠ .whitespace) (more : List Char)
    (line : (next c rest).kind = .lineComment → ∀ d ∈ more.head?, d = '\n') :
    ∃ tail, (next c rest).text = c :: tail ∧
      next c (tail ++ more) = { next c rest with rest := more } := by
  have splits := splits_next c rest
  have known : (next c rest).kind ≠ .unknown := Token.isSkipped_known skipped
  rw [Token.isSkipped, Bool.and_eq_true] at skipped
  cases text : (next c rest).text with
  | nil => exact absurd text splits.some
  | cons d tail =>
    have whole := splits.whole
    rw [text, List.cons_append, List.cons.injEq] at whole
    obtain ⟨rfl, behind⟩ := whole
    have cut : next d (tail ++ (next d rest).rest) =
        (next d tail).followedBy (next d rest).rest := by
      refine next_fits ?_ ?_
      · rwa [behind]
      · rw [behind, text]
    rw [behind] at cut
    have nothing : (next d tail).rest = [] := by
      have same := congrArg Lexeme.rest cut
      rw [followedBy] at same
      simpa using same
    have kind : (next d tail).kind = (next d rest).kind := by rw [cut, followedBy]
    have terminated : (next d tail).terminated = (next d rest).terminated := by rw [cut, followedBy]
    refine ⟨tail, rfl, ?_⟩
    rw [trivia_followedBy (kind ▸ skipped.1) (terminated ▸ skipped.2) more
      (.inr ⟨kind ▸ solid, kind ▸ line⟩), cut, followedBy, followedBy, nothing]
    rfl

end Lexeme

/-- A skipped token before another text only changes the place of this text. -/
theorem scan_again {c : Char} {rest : List Char}
    (skipped : (firstToken position c rest).isSkipped = true) (place : Position) (more : List Char)
    (line : (Lexeme.next c rest).kind = .lineComment → ∀ d ∈ more.head?, d = '\n') :
    scan place ((Lexeme.next c rest).text ++ more) =
      scan (place.after (Lexeme.next c rest).text) more := by
  by_cases white : (Lexeme.next c rest).kind = .whitespace
  · have run := Lexeme.next_blank ((Lexeme.kindOf_next c rest).blank white) rest
    rw [run]
    exact scan_blanks (fun d member => List.mem_takeWhile_imp member) place more
  · obtain ⟨tail, text, again⟩ := Lexeme.next_again skipped white more line
    have skippedAgain : (firstToken place c (tail ++ more)).isSkipped = true := by
      rw [firstToken, again]
      exact skipped
    rw [text, List.cons_append, scan_skip skippedAgain, again, text]

/-- Up to a closing brace the tokens do not depend on what stands behind it. -/
theorem scan_before_brace {brace : Token} (scanned : scan position text = front ++ brace :: after)
    (closes : brace.kind = .closeBrace) (formed : ∀ token ∈ front, token.problem? = none) :
    ∃ shared behind, text = shared ++ '\x7d' :: behind ∧
      after = scan (position.after (shared ++ ['\x7d'])) behind ∧
      ∀ more, scan position (shared ++ '\x7d' :: more) =
        front ++ brace :: scan (position.after (shared ++ ['\x7d'])) more := by
  induction text using lexing generalizing position front with
  | nil => cases front <;> cases scanned
  | cons c rest ih =>
    have splits := Lexeme.splits_next c rest
    cases skipped : (firstToken position c rest).isSkipped with
    | true =>
      rw [scan_skip skipped] at scanned
      obtain ⟨shared, behind, whole, rfl, again⟩ := ih scanned formed
      refine ⟨(Lexeme.next c rest).text ++ shared, behind, ?_, ?_, fun more => ?_⟩
      · rw [List.append_assoc, ← whole, splits.whole]
      · simp only [List.append_assoc, Position.after_append]
      · rw [List.append_assoc, List.append_assoc, Position.after_append, ← again more]
        refine scan_again skipped position _ fun line d head => ?_
        have stops := Lexeme.head_behind_line line
        rw [whole] at stops
        refine stops d ?_
        cases shared <;> exact head
    | false =>
      rw [scan_see skipped] at scanned
      cases front with
      | nil =>
        obtain ⟨rfl, rfl⟩ := List.cons.inj scanned
        obtain rfl : c = '\x7d' := Lexeme.eq_of_punctuation closes (by decide)
        have brace := @next_punctuation '\x7d' .closeBrace (by decide)
        rw [firstToken, brace]
        exact ⟨[], rest, rfl, rfl, @scan_punctuation '\x7d' .closeBrace (by decide) position⟩
      | cons first front =>
        rw [List.cons_append, List.cons.injEq] at scanned
        obtain ⟨rfl, scanned⟩ := scanned
        obtain ⟨shared, behind, whole, rfl, again⟩ :=
          ih scanned fun token member => formed token (List.mem_cons_of_mem _ member)
        have split : c :: rest =
            (Lexeme.next c rest).text ++ shared ++ '\x7d' :: behind := by
          rw [List.append_assoc, ← whole, splits.whole]
        refine ⟨(Lexeme.next c rest).text ++ shared, behind, split, ?_, fun more => ?_⟩
        · simp only [List.append_assoc, Position.after_append]
        · obtain ⟨others, begins, kind, text, terminated⟩ :=
            next_respaced (formed _ List.mem_cons_self) skipped split (List.prefix_append _ _)
              (@detached_cons '\x7d' rfl more)
          have token : firstToken position c others = firstToken position c rest := by
            rw [firstToken, firstToken, kind, text, terminated]
          have left : (Lexeme.next c others).rest = shared ++ '\x7d' :: more :=
            Lexeme.rest_of_text (List.append_assoc _ _ _ ▸ begins) text
          rw [begins, scan_see (token ▸ skipped), left, token, text, again more,
            ← Position.after_append, ← List.append_assoc]
          rfl

/-- A semicolon in front of a text, with white space and comments before it. -/
theorem scan_before_semicolon {semicolon : Token} (scanned : scan position text = semicolon :: after)
    (separates : semicolon.kind = .semicolon) :
    ∃ gap behind, text = gap ++ ';' :: behind ∧ semicolon.position = position.after gap ∧
      after = scan (position.after (gap ++ [';'])) behind ∧
      ∀ place, scan place (gap ++ behind) = scan (place.after gap) behind := by
  induction text using lexing generalizing position with
  | nil => cases scanned
  | cons c rest ih =>
    cases skipped : (firstToken position c rest).isSkipped with
    | true =>
      rw [scan_skip skipped] at scanned
      obtain ⟨gap, behind, whole, place, rfl, again⟩ := ih scanned
      refine ⟨(Lexeme.next c rest).text ++ gap, behind, ?_, ?_, ?_, fun place => ?_⟩
      · rw [List.append_assoc, ← whole, (Lexeme.splits_next c rest).whole]
      · rw [place, Position.after_append]
      · simp only [List.append_assoc, Position.after_append]
      · rw [List.append_assoc, Position.after_append, ← again]
        refine scan_again skipped place _ fun line d head => ?_
        have stops := Lexeme.head_behind_line line
        rw [whole] at stops
        cases gap with
        | nil => exact absurd (stops ';' rfl) (by decide)
        | cons e gap => exact stops d head
    | false =>
      rw [scan_see skipped] at scanned
      obtain ⟨rfl, rfl⟩ := List.cons.inj scanned
      obtain rfl : c = ';' := Lexeme.eq_of_punctuation separates (by decide)
      exact ⟨[], rest, rfl, rfl, rfl, fun _ => rfl⟩

/-- Tokens do not look different from farther behind. -/
theorem likewise_of_moved {distance : Nat} {tokens others : List Token}
    (moved : List.Forall₂ (Token.Moved distance) tokens others) : Likewise others tokens := by
  induction moved with
  | nil => exact .nil
  | @cons token other tokens others same rest ih =>
    refine .cons ⟨same.kind.symm, same.text.symm, same.terminated.symm⟩ (fun _ => ?_) ih
    have stop := same.stop
    cases rest with
    | nil => simp [Token.Touches]
    | cons next _ =>
      have kind := next.kind
      have offset := next.offset
      simp only [Token.Touches, List.head?_cons, Option.mem_def, Option.some.injEq, exists_eq_left',
        kind]
      exact and_congr_right fun _ => by omega

/-- Without a semicolon behind a brace, a text has the other tokens. -/
theorem scan_erased {brace semicolon : Token}
    (scanned : scan .start text = front ++ brace :: semicolon :: after)
    (closes : brace.kind = .closeBrace) (separates : semicolon.kind = .semicolon)
    (formed : ∀ token ∈ front, token.problem? = none) :
    Likewise (front ++ brace :: after)
      (scan .start (text.eraseIdx semicolon.position.offset)) := by
  obtain ⟨shared, behind, rfl, begins, again⟩ := scan_before_brace scanned closes formed
  obtain ⟨gap, behind, rfl, place, rfl, again'⟩ := scan_before_semicolon begins.symm separates
  have offset : semicolon.position.offset = (shared ++ '\x7d' :: gap).length := by
    rw [place, offset_after, offset_after]
    simp [Position.start]
    omega
  have erased : (shared ++ '\x7d' :: (gap ++ ';' :: behind)).eraseIdx semicolon.position.offset =
      shared ++ '\x7d' :: (gap ++ behind) := by
    have split (more : List Char) :
        shared ++ '\x7d' :: (gap ++ more) = (shared ++ '\x7d' :: gap) ++ more := by simp
    rw [offset, split, split, List.eraseIdx_append_of_length_le (Nat.le_refl _), Nat.sub_self,
      List.eraseIdx_cons_zero]
  rw [erased, again, again']
  let near := (Position.start.after (shared ++ ['\x7d'])).after gap
  have moved := scan_moved (show (near.after [';']).offset = near.offset + 1 from offset_after near _)
    behind
  rw [← Position.after_append] at moved
  have tail : Likewise (brace :: scan _ behind) (brace :: scan near behind) :=
    .cons ⟨rfl, rfl, rfl⟩ (fun dot => absurd (closes.symm.trans dot) (by decide))
      (likewise_of_moved moved)
  clear scanned formed again
  induction front with
  | nil => exact tail
  | cons token front ih =>
    refine .cons ⟨rfl, rfl, rfl⟩ (fun _ => ?_) ih
    cases front <;> rfl

end AgentSpeak.Source
