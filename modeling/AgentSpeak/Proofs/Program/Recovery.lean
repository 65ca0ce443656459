import AgentSpeak.Proofs.Program.Relaid
import AgentSpeak.Proofs.Source.Malformed

/-!
What is lost with a faulty clause. Between two programs that are read without a problem, a clause
with balanced brackets and one full stop is left out alone if its problem lies at one of its own
tokens. A problem at the end of its text comes from a full stop that is taken for the beginning of a
built-in action; behind it the next clauses are skipped as well.
-/

namespace AgentSpeak

namespace Source

/-- How many brackets are open behind a token, or none where one closes that was not opened. -/
def deepen? (depth : Nat) (token : Token) : Option Nat :=
  match token.kind with
  | .openParen | .openBracket | .openBrace => some (depth + 1)
  | .closeParen | .closeBracket | .closeBrace => if depth = 0 then none else some (depth - 1)
  | _ => some depth

/-- How many brackets are open behind some tokens. -/
def depth? (depth : Nat) (tokens : List Token) : Option Nat :=
  tokens.foldlM deepen? depth

/-- Each bracket that opens is closed. -/
def Balanced (tokens : List Token) : Prop :=
  depth? 0 tokens = some 0

instance (tokens : List Token) : Decidable (Balanced tokens) :=
  inferInstanceAs (Decidable (_ = _))

variable {S : Surroundings} {tokens others p q : List Token} {token : Token} {depth : Nat}

theorem depth?_cons : depth? depth (token :: tokens) =
    (deepen? depth token).bind fun depth => depth? depth tokens :=
  List.foldlM_cons

/-- Behind some of the tokens there are enough brackets open for the others. -/
theorem Balanced.exists_depth (balanced : Balanced (tokens ++ others)) :
    ∃ depth, depth? depth others = some 0 := by
  rw [Balanced, depth?, List.foldlM_append] at balanced
  obtain ⟨depth, -, rest⟩ := Option.bind_eq_some_iff.mp balanced
  exact ⟨depth, rest⟩

theorem Surroundings.Paired.map_kind (paired : S.Paired p q) :
    q.map Token.kind = p.map Token.kind := by
  induction paired with
  | nil => rfl
  | cons moved own rest ih => rw [List.map_cons, List.map_cons, moved.kind, ih]

/-- Counterparts have the same brackets. -/
theorem Surroundings.Paired.depth?_eq (paired : S.Paired p q) (depth : Nat) :
    depth? depth q = depth? depth p := by
  induction paired generalizing depth with
  | nil => rfl
  | @cons token counterpart _ _ moved own rest ih =>
    have same : deepen? depth counterpart = deepen? depth token := by
      rw [deepen?, deepen?, moved.kind]
    rw [depth?_cons, depth?_cons, same]
    exact congrArg _ (funext ih)

variable {position : Position} {text : List Char}

/-- The tokens of a text lie inside it. -/
theorem bounds_of_mem_lex (member : token ∈ lex position text) :
    position.offset ≤ token.position.offset ∧ token.stop ≤ (position.after text).offset := by
  induction text using lexing generalizing position with
  | nil => cases member
  | cons c rest ih =>
    have whole := (Lexeme.splits_next c rest).whole
    rw [lex_cons, List.mem_cons] at member
    rw [← whole, Position.after_append]
    rcases member with rfl | later
    · refine ⟨Nat.le_refl _, ?_⟩
      rw [offset_after, offset_after]
      exact Nat.le_add_right _ _
    · obtain ⟨lower, upper⟩ := ih later
      rw [offset_after] at lower
      exact ⟨by omega, upper⟩

/-- No token stands right behind the last one of the line before. -/
theorem not_touched_line (position : Position) (text more : List Char) :
    ¬Touched (scan position text) (scan ((position.after text).next '\n') more) := by
  rintro ⟨last, closed, next, head, -, place⟩
  have upper := (bounds_of_mem_lex (List.mem_of_mem_filter (List.mem_of_getLast? closed))).2
  have lower := (bounds_of_mem_lex (List.mem_of_mem_filter (List.mem_of_head? head))).1
  have line : ((position.after text).next '\n').offset = (position.after text).offset + 1 := rfl
  omega

theorem formed_of_moved {distance : Nat}
    (moved : List.Forall₂ (Token.Moved distance) tokens others)
    (formed : ∀ token ∈ tokens, token.problem? = none) :
    ∀ token ∈ others, token.problem? = none := by
  induction moved with
  | nil => exact formed
  | cons same _ ih =>
    rw [List.forall_mem_cons] at formed ⊢
    exact ⟨same.problem.mpr formed.1, ih formed.2⟩

/-- What comes last of some tokens faces what comes last of their counterparts. -/
theorem Surroundings.Paired.concat {last : Token} (paired : S.Paired (p ++ [last]) q) :
    ∃ q' last', q = q' ++ [last'] ∧ S.Paired p q' ∧ last.Moved S.distance last' := by
  induction p generalizing q with
  | nil =>
    cases paired with
    | cons moved own rest =>
      cases rest
      exact ⟨[], _, rfl, .nil, moved⟩
  | cons token p ih =>
    cases paired with
    | cons moved own rest =>
      obtain ⟨q', last', rfl, paired, same⟩ := ih rest
      exact ⟨_ :: q', last', rfl, .cons moved own paired, same⟩

end Source

open Source (Token Kind Parser Cursor Problem ParseError Surroundings Balanced Touched deepen?
  depth? depth?_cons finishOf scan)
open Source.Parser

namespace Clause

theorem beginsAction_iff {dot : Token} {rest : List Token} :
    beginsAction dot rest = true ↔ dot.Touches rest := by
  cases rest <;> simp [beginsAction, Token.Touches]

/-- One token is skipped. A count of brackets that is not above the true one stays so, and a bracket
that closes with nothing counted leaves it at nothing. -/
theorem skip_step {token : Token} {low high depth : Nat} (other : token.kind ≠ .dot)
    (le : low ≤ high) (deepened : deepen? high token = some depth) (inBody : Bool) (rest : List Token) :
    ∃ inBody' low', low' ≤ depth ∧
      skip inBody low (token :: rest) = skip inBody' low' rest := by
  rw [skip]
  unfold deepen? at deepened
  split at deepened
  case h_1 mark | h_2 mark | h_3 mark =>
    obtain rfl := Option.some.inj deepened
    simp only [mark]
    exact ⟨_, _, Nat.succ_le_succ le, rfl⟩
  case h_4 mark | h_5 mark | h_6 mark =>
    split at deepened
    next => cases deepened
    next =>
      obtain rfl := Option.some.inj deepened
      simp only [mark]
      exact ⟨_, _, Nat.sub_le_sub_right le 1, rfl⟩
  case h_7 =>
    obtain rfl := Option.some.inj deepened
    split <;> first | contradiction | exact ⟨_, _, le, rfl⟩

/-- What is skipped of a faulty clause ends with the full stop behind which no bracket is open. The
count of brackets begins in the middle of the clause, so it is never above the true one. -/
theorem skip_balanced {tokens rest : List Token} {dot : Token} {low high : Nat}
    (inner : ∀ token ∈ tokens, token.kind ≠ .dot) (kind : dot.kind = .dot)
    (apart : ¬dot.Touches rest) (le : low ≤ high) (balanced : depth? high tokens = some 0)
    (inBody : Bool) : skip inBody low (tokens ++ dot :: rest) = rest := by
  induction tokens generalizing inBody low high with
  | nil =>
    obtain rfl : high = 0 := Option.some.inj balanced
    obtain rfl : low = 0 := Nat.le_zero.mp le
    have none : beginsAction dot rest = false := by
      rwa [← Bool.not_eq_true, beginsAction_iff]
    simp [skip, kind, none]
  | cons token tokens ih =>
    rw [List.forall_mem_cons] at inner
    obtain ⟨depth, deepened, balanced⟩ := Option.bind_eq_some_iff.mp (depth?_cons ▸ balanced)
    obtain ⟨inBody', low', le, step⟩ := skip_step inner.1 le deepened inBody (tokens ++ dot :: rest)
    rw [List.cons_append, step]
    exact ih inner.2 le balanced inBody'

variable {S : Surroundings} {p q : List Token} {w : Nat}

theorem parseAll_nil (fuel : Nat) (finish : Token) (w : Nat) :
    parseAll fuel ⟨[], finish, w⟩ = ([], none) := by
  cases fuel <;> rfl

/-- A clause that is read from its own tokens is read from their counterparts in the midst of other
tokens as well, and both readings go on behind it. -/
theorem parse_beside (sound : S.Sound) (apart : ¬Touched q S.other) (facing : S.Facing p q)
    {clause : Clause} {after : Cursor} (done : parse (S.first p w) = (.ok clause, after)) :
    ∃ left left' count, after = S.first left count ∧ left.length < p.length ∧
      S.Remains p q left left' ∧ (S.second q w).upcoming ≠ [] ∧
      parse (S.second q w) = (.ok (clause.rename S.renaming), S.second left' count) := by
  have beside : Abreast True S w p q parse parse _ := abreast_parse sound facing
  unfold Abreast at beside
  rcases ran : parse (S.second q w) with ⟨outcome', after'⟩
  rw [done, ran] at beside
  cases beside with
  | beyond touched => exact absurd touched apart
  | @ok _ copy left left' count remains _ same =>
    subst same
    obtain ⟨used, dot, passes, -⟩ := Closing.closes _ _ _ (facing.paired.sound sound w) ran
    have split : q ++ S.other = used ++ [dot] ++ (left' ++ S.other) := passes.split
    refine ⟨left, left', count, rfl, ?_, remains, ?_, rfl⟩
    · have lengths := congrArg List.length split
      simp only [List.length_append, List.length_singleton] at lengths
      rw [← remains.paired.length_eq, ← facing.paired.length_eq]
      omega
    · simp [Surroundings.second, split]

/-- Clauses that are read without a problem from their own tokens are read from the counterparts in
the midst of other tokens as well, and reading goes on behind them. -/
theorem parseAll_beside (sound : S.Sound) (alone : S.rest = []) (apart : ¬Touched q S.other)
    (fuel : Nat) {clauses : List Clause} (paired : S.Paired p q)
    (facing : p ≠ [] → S.Facing p q) (enough : p.length ≤ fuel)
    (done : parseStrictly fuel (S.first p w) = .ok clauses) :
    clauses.length ≤ p.length ∧ ∃ count, ∀ more,
      parseAll (clauses.length + more) (S.second q w) =
        (parseAll more (S.second [] count)).map
          (clauses.map (fun clause => .ok (clause.rename S.renaming)) ++ ·) id := by
  have nothing {w : Nat} {clauses : List Clause} {q : List Token} (paired : S.Paired [] q)
      (done : .ok [] = (.ok clauses : Except Problem (List Clause))) :
      clauses.length ≤ 0 ∧ ∃ count, ∀ more, parseAll (clauses.length + more) (S.second q w) =
        (parseAll more (S.second [] count)).map
          (clauses.map (fun clause => .ok (clause.rename S.renaming)) ++ ·) id := by
    cases paired
    cases done
    exact ⟨Nat.le_refl 0, w, fun more => by rw [List.length_nil, Nat.zero_add]; rfl⟩
  induction fuel generalizing p q w clauses with
  | zero =>
    obtain rfl := List.length_eq_zero_iff.mp (Nat.le_zero.mp enough)
    exact nothing paired done
  | succ fuel ih =>
    rw [parseStrictly] at done
    split at done
    next none =>
      obtain rfl : p = [] := (List.append_eq_nil_iff.mp (List.isEmpty_iff.mp none)).1
      exact nothing paired done
    next more =>
      have some : p ≠ [] := by
        rintro rfl
        exact more (by simp [Surroundings.first, alone])
      have facing := facing some
      cases ran : parse (S.first p w) with
      | mk outcome after =>
        rw [ran] at done
        cases outcome with
        | error problem => cases done
        | ok clause =>
          obtain ⟨left, left', count, rfl, fewer, remains, nonempty, ran'⟩ :=
            parse_beside sound apart facing ran
          obtain ⟨others, rest, rfl⟩ := map_eq_ok_iff.mp done
          obtain ⟨bound, last, goes⟩ := ih (fun touched => apart (touched.of_suffix remains.second))
            remains.paired (fun some => facing.suffix remains.first some remains.paired)
            (by omega) rest
          refine ⟨Nat.lt_of_le_of_lt bound fewer, last, fun fuel => ?_⟩
          rw [List.length_cons, Nat.add_right_comm, parseAll, if_neg (by simpa using nonempty), ran']
          dsimp only
          rw [goes fuel]
          rfl

/-- A faulty clause whose problem lies at one of its own tokens is faulty in the midst of others as
well, and reading goes on behind its full stop. -/
theorem recover_beside {inner : List Token} {dot : Token} {problem : Problem} {failed : Cursor}
    (sound : S.Sound) (apart : ¬Touched q S.other) (facing : S.Facing (inner ++ [dot]) q)
    (kind : dot.kind = .dot) (single : ∀ token ∈ inner, token.kind ≠ .dot)
    (balanced : Balanced inner)
    (ran : parse (S.first (inner ++ [dot]) w) = (.error problem, failed))
    (inside : problem.token ≠ S.edge) :
    ∃ problem' failed' count, parse (S.second q w) = (.error problem', failed') ∧
      problem'.isFatal = problem.isFatal ∧
      recover (S.second q w) failed' = S.second [] count := by
  have beside : Abreast True S w (inner ++ [dot]) q parse parse _ := abreast_parse sound facing
  unfold Abreast at beside
  rcases ran' : parse (S.second q w) with ⟨outcome', after'⟩
  rw [ran, ran'] at beside
  cases beside with
  | beyond touched => exact absurd touched apart
  | @error _ problem' left left' count remains some fatal =>
    refine ⟨problem', _, count, rfl, fatal, ?_⟩
    have some : left ≠ [] := some.resolve_right inside
    obtain ⟨rest, rfl, used, rfl⟩ := (List.suffix_concat_iff.mp remains.first).resolve_left some
    obtain ⟨rest', dot', rfl, paired, moved⟩ := remains.paired.concat
    obtain ⟨depth, enough⟩ := balanced.exists_depth
    have inner' : ∀ token ∈ rest', token.kind ≠ .dot := by
      intro token member
      obtain ⟨own, listed, same⟩ :=
        List.mem_map.mp (paired.map_kind ▸ List.mem_map_of_mem member)
      exact same ▸ single own (List.mem_append_right used listed)
    have apart' : ¬dot'.Touches S.other := fun touches =>
      apart (Touched.of_suffix ⟨dot', by simp, touches⟩ remains.second)
    have skipped (inBody : Bool) : skip inBody 0 (rest' ++ dot' :: S.other) = S.other :=
      skip_balanced inner' (moved.kind.trans kind) apart' (Nat.zero_le depth)
        ((paired.depth?_eq depth).trans enough) inBody
    have upcoming : (S.second (rest' ++ [dot']) count).upcoming = rest' ++ dot' :: S.other := by
      simp [Surroundings.second]
    rw [recover, upcoming, skipped]
    rfl

end Clause

namespace Program

variable {text : String} {reading : Reading} {error : ParseError}

theorem exists_of_readStrict (accepted : readStrict text = .ok reading) :
    ∃ clauses, reading = ⟨ofClauses clauses, []⟩ ∧
      Clause.parseStrictly (scan .start text.toList).length (Source.Parser.start text) =
        .ok clauses := by
  rw [readStrict] at accepted
  split at accepted
  next clauses done =>
    rw [Source.start_eq] at done ⊢
    exact ⟨clauses, (Except.ok.inj accepted).symm, done⟩
  next => cases accepted

/-- A text with one full stop at its end that is refused has one clause, and this has the
problem. -/
theorem parse_of_refused {inner : List Token} {dot : Token}
    (tokens : scan .start text.toList = inner ++ [dot])
    (single : ∀ token ∈ inner, token.kind ≠ .dot) (refused : readStrict text = .error error) :
    ∃ problem failed, Clause.parse (Source.Parser.start text) = (.error problem, failed) ∧
      error.toProblem = problem := by
  have start := Source.start_eq text
  rw [tokens] at start
  have some : (Source.Parser.start text).upcoming ≠ [] := by simp [start]
  rcases ran : Clause.parse (Source.Parser.start text) with ⟨problem | clause, after⟩
  · refine ⟨problem, after, rfl, ?_⟩
    obtain ⟨fuel, enough⟩ := Nat.exists_eq_add_one_of_ne_zero (mt List.length_eq_zero_iff.mp some)
    have strictly : Clause.parseStrictly (Source.Parser.start text).upcoming.length
        (Source.Parser.start text) = .error problem := by
      rw [enough, Clause.parseStrictly, if_neg (by simpa using some), ran]
    simp only [readStrict, strictly] at refused
    exact congrArg ParseError.toProblem (Except.error.inj refused).symm
  · obtain ⟨used, last, passes, kind⟩ := Closing.closes _ clause after (sound_start text) ran
    have whole : after.upcoming = [] := by
      rcases List.eq_nil_or_concat after.upcoming with none | ⟨rest, final, behind⟩
      · exact none
      · have split : inner ++ [dot] = used ++ [last] ++ (rest ++ [final]) := by
          have split := passes.split
          rwa [start, behind, List.concat_eq_append] at split
        rw [← List.append_assoc] at split
        have front := (List.append_inj' split rfl).1
        exact absurd kind (single last (by simp [front]))
    rw [Clause.readStrict_single some ran whole] at refused
    cases refused

section Placed

variable {position : Source.Position} {other : List Token} {finish : Token} (shift : Nat)
  (spelled : ∀ token ∈ other, Term.Spelled token) (ended : finish.kind = .endOfInput)
  (apart : ¬Touched (scan position text.toList) other)

include spelled ended apart

/-- The clauses of a program without a problem are read at another place as well. -/
theorem parseAll_accepted (accepted : readStrict text = .ok reading) :
    ∃ clauses count, reading = ⟨ofClauses clauses, []⟩ ∧
      clauses.length ≤ (scan .start text.toList).length ∧ ∀ more,
        Clause.parseAll (clauses.length + more)
            ⟨scan position text.toList ++ other, finish, shift⟩ =
          (Clause.parseAll more ⟨other, finish, count⟩).map
            (clauses.map (fun clause => .ok (clause.rename (.renumber (· + shift)))) ++ ·) id := by
  obtain ⟨clauses, same, done⟩ := exists_of_readStrict accepted
  let S := Surroundings.alone text position other finish shift
  have sound : S.Sound := Surroundings.sound_alone spelled ended
  have paired : S.Paired (scan .start text.toList) (scan position text.toList) :=
    Surroundings.paired_alone
  have facing (some : scan .start text.toList ≠ []) :
      S.Facing (scan .start text.toList) (scan position text.toList) := by
    have last := List.getLast?_eq_some_getLast some
    exact ⟨paired, ⟨_, last, (closed_of_readStrict accepted).2 _ last⟩, Source.not_touched_nil _⟩
  have first : S.first (scan .start text.toList) 0 = Source.Parser.start text :=
    Surroundings.first_alone
  obtain ⟨bound, count, goes⟩ := Clause.parseAll_beside sound rfl apart _ paired facing
    (Nat.le_refl _) (first ▸ done)
  refine ⟨clauses, count + shift, same, bound, fun more => ?_⟩
  have goes := goes more
  rwa [Surroundings.second_alone, Surroundings.second_alone, Nat.zero_add] at goes

/-- A faulty clause is left out at another place as well. -/
theorem parseAll_refused {inner : List Token} {dot : Token}
    (tokens : scan .start text.toList = inner ++ [dot]) (kind : dot.kind = .dot)
    (single : ∀ token ∈ inner, token.kind ≠ .dot) (balanced : Balanced inner)
    (refused : readStrict text = .error error) (mild : error.isFatal = false)
    (inside : error.token.kind ≠ .endOfInput) :
    ∃ problem count, ∀ more,
      Clause.parseAll (more + 1) ⟨scan position text.toList ++ other, finish, shift⟩ =
        (Clause.parseAll more ⟨other, finish, count⟩).map (.error problem :: ·) id := by
  obtain ⟨problem, failed, ran, rfl⟩ := parse_of_refused tokens single refused
  let S := Surroundings.alone text position other finish shift
  have sound : S.Sound := Surroundings.sound_alone spelled ended
  have paired : S.Paired (inner ++ [dot]) (scan position text.toList) :=
    tokens ▸ Surroundings.paired_alone
  have facing : S.Facing (inner ++ [dot]) (scan position text.toList) :=
    ⟨paired, ⟨dot, by simp, kind⟩, Source.not_touched_nil _⟩
  have first : S.first (inner ++ [dot]) 0 = Source.Parser.start text :=
    tokens ▸ Surroundings.first_alone
  have place : error.token ≠ S.edge := by
    intro last
    rw [last] at inside
    exact inside rfl
  obtain ⟨problem', failed', count, ran', fatal, recovered⟩ :=
    Clause.recover_beside sound apart facing kind single balanced (first ▸ ran) place
  rw [Surroundings.second_alone, Nat.zero_add] at ran' recovered
  have some : scan position text.toList ≠ [] := by
    intro none
    rw [none] at paired
    cases inner <;> cases paired
  refine ⟨problem', count + shift, fun more => ?_⟩
  rw [Clause.parseAll, if_neg (by simp [some]), ran']
  dsimp only
  rw [fatal, mild, if_neg Bool.false_ne_true, recovered, Surroundings.second_alone]
  rfl

end Placed

/-- Clauses on both sides of an error. -/
theorem ofOutcomes_between (first last : List Clause) (error : ParseError) :
    Reading.ofOutcomes (first.map .ok ++ .error error :: last.map .ok) =
      ⟨ofClauses first ++ ofClauses last, [error]⟩ := by
  have read (clauses : List Clause) :
      (clauses.map .ok : List (Except ParseError Clause)).filterMap Except.toOption = clauses := by
    rw [List.filterMap_map]
    exact List.filterMap_some
  have faultless (clauses : List Clause) :
      (clauses.map .ok : List (Except ParseError Clause)).filterMap Clause.fault? = [] := by
    rw [List.filterMap_map]
    exact List.filterMap_eq_nil_iff.mpr fun _ _ => rfl
  rw [Reading.ofOutcomes, List.filterMap_append, List.filterMap_append, List.filterMap_cons,
    List.filterMap_cons, read, read, faultless, faultless, ← ofClauses_append]
  rfl

/-- A text with one faulty clause reads as the clauses on both sides of it. -/
theorem readLenient_of_parseAll {text : String} {first last : List Clause} {problem : Source.Problem}
    (parsed : Clause.parseAll (scan .start text.toList).length (Source.Parser.start text) =
      (first.map .ok ++ .error problem :: last.map .ok, none)) :
    readLenient text =
      .ok ⟨ofClauses first ++ ofClauses last, [.ofProblem (Text.lines text) problem]⟩ := by
  have start := congrArg Cursor.upcoming (Source.start_eq text)
  have outcomes : readClauses text = (first.map .ok ++
      .error (.ofProblem (Text.lines text) problem) :: last.map .ok, none) := by
    rw [readClauses, start, parsed]
    simp only [Prod.map, List.map_append, List.map_cons, List.map_map]
    rfl
  rw [readLenient, outcomes]
  dsimp only
  rw [ofOutcomes_between]

/-- Lenient reading leaves out a faulty clause between two programs and nothing else, if the clause
has balanced brackets and just one full stop, at its end, and its problem lies at one of its own
tokens and does not end the reading at once. -/
theorem readLenient_between {before faulty behind : String} {first last : Reading}
    {inner : List Token} {dot : Token} (accepted : readStrict before = .ok first)
    (accepted' : readStrict behind = .ok last)
    (tokens : (Source.tokenize faulty).significant.tokens = inner ++ [dot]) (kind : dot.kind = .dot)
    (single : ∀ token ∈ inner, token.kind ≠ .dot) (formed : ∀ token ∈ inner, token.problem? = none)
    (balanced : Balanced inner) (refused : readStrict faulty = .error error)
    (mild : error.isFatal = false) (inside : error.token.kind ≠ .endOfInput) :
    ∃ shift left, readLenient (before ++ "\n" ++ faulty ++ "\n" ++ behind) =
      .ok ⟨first.program ++ last.program.rename (.renumber (· + shift)), [left]⟩ := by
  have tokens : scan .start faulty.toList = inner ++ [dot] :=
    (congrArg Cursor.upcoming (Source.start_eq faulty)).symm.trans tokens
  let text := before ++ "\n" ++ faulty ++ "\n" ++ behind
  let middle := (Source.Position.start.after before.toList).next '\n'
  let lower := (middle.after faulty.toList).next '\n'
  have characters : text.toList =
      before.toList ++ '\n' :: (faulty.toList ++ '\n' :: behind.toList) := by
    simp [text, String.toList_append]
  have formedBefore := formed_of_readStrict accepted
  have place (position : Source.Position) (text : List Char) :=
    Source.scan_moved (show position.offset = Source.Position.start.offset + position.offset
      from (Nat.zero_add _).symm) text
  have formedFaulty : ∀ token ∈ scan middle faulty.toList, token.problem? = none := by
    refine Source.formed_of_moved (place middle faulty.toList) ?_
    rw [tokens, List.forall_mem_append, List.forall_mem_singleton]
    exact ⟨formed, Source.formed_of_kind kind (by decide)⟩
  have below : scan middle (faulty.toList ++ '\n' :: behind.toList) =
      scan middle faulty.toList ++ scan lower behind.toList :=
    Source.scan_line formedFaulty behind.toList
  have scanned : scan .start text.toList =
      scan .start before.toList ++ (scan middle faulty.toList ++ scan lower behind.toList) := by
    rw [characters, Source.scan_line formedBefore, below]
  have spelled {position : Source.Position} {text : List Char} :
      ∀ token ∈ scan position text, Term.Spelled token := fun _ => Source.spelled_scan
  have ended : (finishOf text).kind = .endOfInput := rfl
  obtain ⟨clauses, count, rfl, bound, goes⟩ := parseAll_accepted 0 (below ▸ spelled) ended
    (below ▸ Source.not_touched_line .start before.toList _) accepted
  obtain ⟨problem, count', skips⟩ := parseAll_refused count spelled ended
    (Source.not_touched_line middle faulty.toList behind.toList) tokens kind single balanced refused
    mild inside
  obtain ⟨clauses', count'', rfl, bound', goes'⟩ := parseAll_accepted count' (by simp) ended
    (Source.not_touched_nil (scan lower behind.toList)) accepted'
  rw [List.append_nil] at goes'
  -- There are more tokens than clauses, so that reading does not end before the text does.
  obtain ⟨more, fuel⟩ : ∃ more, (scan .start text.toList).length =
      clauses.length + (clauses'.length + more + 1) := by
    have same := (place middle faulty.toList).length_eq
    have same' := (place lower behind.toList).length_eq
    rw [tokens, List.length_append, List.length_singleton] at same
    rw [scanned, List.length_append, List.length_append, ← same, ← same']
    obtain ⟨some, enough⟩ := Nat.exists_eq_add_of_le bound
    obtain ⟨some', enough'⟩ := Nat.exists_eq_add_of_le bound'
    exact ⟨some + inner.length + some', by omega⟩
  have parsed : Clause.parseAll (scan .start text.toList).length (Source.Parser.start text) =
      (clauses.map .ok ++ .error problem ::
        (clauses'.map (Clause.rename (.renumber (· + count')))).map .ok, none) := by
    have goes := goes (clauses'.length + more + 1)
    simp only [Variable.renumber_zero, Clause.rename_id] at goes
    rw [fuel, Source.start_eq, scanned, goes, skips, goes', Clause.parseAll_nil]
    simp only [Prod.map, List.append_nil, id_eq, List.map_map, Function.comp_def]
  rw [readLenient_of_parseAll parsed, ofClauses_rename]
  exact ⟨count', .ofProblem (Text.lines text) problem, rfl⟩

/-- The second of two statements lacks its semicolon, and the wildcard behind is counted on. -/
theorem readLenient_between_rules :
    ∃ shift left, readLenient ("p :- q(_)." ++ "\n" ++ "+!g <- f(_) b." ++ "\n" ++ "r :- s(_).") =
      .ok ⟨⟨[], [⟨.atom "p", .literal (.compound "q" [.var (.wildcard 1)])⟩], [], []⟩ ++
        Program.rename (.renumber (· + shift))
          ⟨[], [⟨.atom "r", .literal (.compound "s" [.var (.wildcard 1)])⟩], [], []⟩, [left]⟩ :=
  readLenient_between
    (show readStrict "p :- q(_)." = .ok ⟨⟨[], [⟨.atom "p", _⟩], [], []⟩, []⟩ from rfl)
    (show readStrict "r :- s(_)." = .ok ⟨⟨[], [⟨.atom "r", _⟩], [], []⟩, []⟩ from rfl)
    (show (Source.tokenize "+!g <- f(_) b.").significant.tokens =
      (Source.tokenize "+!g <- f(_) b").significant.tokens ++
        [⟨.dot, ['.'], ⟨13, 1, 14⟩, true⟩] from rfl)
    rfl (by decide) (by decide) (by decide)
    (show readStrict "+!g <- f(_) b." = .error
      ⟨⟨.expected .dotAfterPlan, ⟨.functor, ['b'], ⟨12, 1, 13⟩, true⟩, nofun⟩, "+!g <- f(_) b."⟩
      from rfl)
    rfl (by decide)

/-- A full stop at the place of a statement is taken for the beginning of a built-in action. The
problem is that the text ends behind it, and with another clause there, this one is lost. -/
theorem readLenient_loses : ∃ error left, readStrict "+!g <- a; ." = .error error ∧
    error.token.kind = .endOfInput ∧
      readLenient "a.\n+!g <- a; .\nb." = .ok ⟨⟨[.atom "a"], [], [], []⟩, [left]⟩ :=
  ⟨_, _, rfl, rfl, rfl⟩

end Program

end AgentSpeak
