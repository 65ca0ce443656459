import AgentSpeak.Proofs.Program.Abreast
import AgentSpeak.Proofs.Source.Cutting
import AgentSpeak.Proofs.Source.Places
import AgentSpeak.Proofs.Term.Survival

namespace AgentSpeak

open Source (Token Cursor Problem ParseError Parser Passes Surroundings finishOf reach reach_eq_nil
  scan sourceOf)
open Source.Parser

variable {cursor after failed : Cursor} {text : String}

namespace Source.Surroundings

variable {position : Source.Position} {other : List Token} {last : Token} {shift : Nat}

/-- A text by itself, and the same text at a place of another one with other tokens behind it. -/
def alone (text : String) (position : Source.Position) (other : List Token) (last : Token)
    (shift : Nat) : Surroundings where
  rest := []
  other := other
  finish := finishOf text
  last := last
  distance := position.offset
  shift := shift
  allowed := Term.Spelled

theorem sound_alone (spelled : ∀ token ∈ other, Term.Spelled token)
    (ended : last.kind = .endOfInput) : (alone text position other last shift).Sound :=
  ⟨fun _ own => own, spelled, rfl, ended⟩

theorem paired_alone : (alone text position other last shift).Paired (scan .start text.toList)
    (scan position text.toList) :=
  paired_of_moved (Source.scan_moved (Nat.zero_add _).symm text.toList)
    fun _ => Source.spelled_scan

theorem first_alone : (alone text position other last shift).first (scan .start text.toList) 0 =
    Source.Parser.start text := by
  simp [first, alone, Source.start_eq]

theorem second_alone (tokens : List Token) (w : Nat) :
    (alone text position other last shift).second tokens w = ⟨tokens ++ other, last, w + shift⟩ :=
  rfl

end Source.Surroundings

namespace Clause

/-- Every token that is no full stop is skipped. -/
theorem skip_inner {token : Token} (inner : token.kind ≠ .dot) (inBody : Bool) (depth : Nat)
    (rest : List Token) :
    ∃ inBody' depth', skip inBody depth (token :: rest) = skip inBody' depth' rest := by
  rw [skip]
  split
  case h_8 dot => exact absurd dot inner
  all_goals exact ⟨_, _, rfl⟩

/-- What is skipped of a faulty clause reaches beyond the next full stop. -/
theorem exists_skip (inBody : Bool) (depth : Nat) (tokens : List Token) :
    ∃ more, tokens = reach tokens ++ more ++ skip inBody depth tokens := by
  induction tokens generalizing inBody depth with
  | nil => exact ⟨[], rfl⟩
  | cons token rest ih =>
    by_cases dot : token.kind = .dot
    · rw [reach, if_pos dot, skip, dot]
      dsimp only
      split
      · exact ⟨[], rfl⟩
      · obtain ⟨more, split⟩ := ih inBody depth
        refine ⟨reach rest ++ more, ?_⟩
        rw [List.append_assoc, ← split, List.singleton_append]
    · obtain ⟨inBody', depth', skips⟩ := skip_inner dot inBody depth rest
      obtain ⟨more, split⟩ := ih inBody' depth'
      refine ⟨more, ?_⟩
      rw [reach, if_neg dot, skips, List.cons_append, List.cons_append, ← split]

/-- Of a clause with a problem at least one token is skipped, and the problem lies among those that
are skipped or at the end of the input. -/
theorem error_parse {problem : Problem} (sound : cursor.Sound) (some : cursor.upcoming ≠ [])
    (ran : parse cursor = (.error problem, failed)) :
    ∃ used, used ≠ [] ∧ cursor.upcoming = used ++ (recover cursor failed).upcoming ∧
      (recover cursor failed).finish = cursor.finish ∧
        (problem.token ∈ used ∨ problem.token = cursor.finish) := by
  have orderly : Orderly (fun _ => False) parse := inferInstance
  obtain ⟨used, passes, near⟩ := orderly.orderlyAt cursor sound
  rw [ran] at passes near
  let inBody := (cursor.upcoming.take (cursor.upcoming.length - failed.upcoming.length)).any
    fun token => token.kind == .planArrow
  obtain ⟨more, skipped⟩ := exists_skip inBody 0 failed.upcoming
  have split : cursor.upcoming =
      used ++ (reach failed.upcoming ++ more) ++ (recover cursor failed).upcoming := by
    show _ = _ ++ skip inBody 0 failed.upcoming
    rw [List.append_assoc, ← skipped]
    exact passes.split
  -- What the parser has read and what is skipped are not both empty, since skipping reads at least to
  -- the next full stop.
  refine ⟨used ++ (reach failed.upcoming ++ more), fun none => ?_, split, passes.finish, ?_⟩
  · obtain ⟨unread, unskipped⟩ := List.append_eq_nil_iff.mp none
    have unreached := (List.append_eq_nil_iff.mp unskipped).1
    have last : failed.upcoming = [] := reach_eq_nil.mp unreached
    exact some (by rw [passes.split, unread, last, List.append_nil])
  · rcases (near problem rfl).resolve_left id with inside | ahead | ended
    · exact .inl (List.mem_append_left _ inside)
    · exact .inl (List.mem_append_right _ (List.mem_append_left _ ahead))
    · exact .inr (ended.trans passes.finish)

theorem readStrict_single {clause : Clause} (some : (Source.Parser.start text).upcoming ≠ [])
    (ran : parse (Source.Parser.start text) = (.ok clause, after)) (whole : after.upcoming = []) :
    Program.readStrict text = .ok ⟨.ofClauses [clause], []⟩ := by
  obtain ⟨fuel, enough⟩ := Nat.exists_eq_add_one_of_ne_zero
    (mt List.length_eq_zero_iff.mp some)
  have nothing : parseStrictly fuel after = .ok [] := by
    cases fuel <;> simp [parseStrictly, whole]
  have strictly : parseStrictly (Source.Parser.start text).upcoming.length
      (Source.Parser.start text) = .ok [clause] := by
    rw [enough, parseStrictly, if_neg (by simpa using some), ran]
    dsimp only
    rw [nothing]
    rfl
  simp only [Program.readStrict, strictly]

/-- A clause inside a text is read from its own text in the same way, but for the wildcards that
have been seen before it. -/
theorem read_alone {clause : Clause} {before used rest : List Token} {dot : Token} {w w' : Nat}
    (split : scan .start text.toList = before ++ (used ++ [dot]) ++ rest) (kind : dot.kind = .dot)
    (formed : ∀ token ∈ used ++ [dot], token.problem? = none)
    (ran : parse ⟨used ++ [dot] ++ rest, finishOf text, w⟩ =
      (.ok clause, ⟨rest, finishOf text, w'⟩)) :
    ∃ alone, Program.readStrict (String.ofList (sourceOf text.toList (used ++ [dot]))) =
        .ok ⟨.ofClauses [alone], []⟩ ∧ clause = alone.rename (.renumber (· + w)) := by
  obtain ⟨position, scanned⟩ := Source.scan_sourceOf split (by simp) formed
  let source := String.ofList (sourceOf text.toList (used ++ [dot]))
  let S := Surroundings.alone source position rest (finishOf text) w
  have sound : S.Sound :=
    Surroundings.sound_alone (fun token member => Source.spelled_scan
      (split ▸ List.mem_append_right _ member)) rfl
  have characters : source.toList = sourceOf text.toList (used ++ [dot]) := by simp [source]
  have paired : S.Paired (scan .start source.toList) (used ++ [dot]) := by
    rw [← scanned, ← characters]
    exact Surroundings.paired_alone
  obtain ⟨last, closed, same⟩ := paired.last (show dot ∈ (used ++ [dot]).getLast? by simp)
  have facing : S.Facing (scan .start source.toList) (used ++ [dot]) :=
    ⟨paired, ⟨last, closed, same.kind.symm.trans kind⟩, Source.not_touched_nil _⟩
  have second : S.second (used ++ [dot]) 0 = ⟨used ++ [dot] ++ rest, finishOf text, w⟩ := by
    rw [Surroundings.second_alone, Nat.zero_add]
  rw [← second] at ran
  obtain ⟨alone, count, ranAlone, -, same⟩ := (abreast_parse sound facing).closes ran
  refine ⟨alone, ?_, same⟩
  have start : S.first (scan .start source.toList) 0 = Source.Parser.start source :=
    Surroundings.first_alone
  rw [start] at ranAlone
  refine readStrict_single ?_ ranAlone rfl
  rw [Source.start_eq]
  exact facing.some

/-- Strict reading gives the clauses if there is no problem, and else the first problem. -/
theorem parseStrictly_eq (fuel : Nat) (cursor : Cursor) :
    parseStrictly fuel cursor =
      match (parseAll fuel cursor).1.filterMap fault?, (parseAll fuel cursor).2 with
      | [], none => .ok ((parseAll fuel cursor).1.filterMap Except.toOption)
      | [], some problem => .error problem
      | problem :: _, _ => .error problem := by
  induction fuel generalizing cursor with
  | zero => rfl
  | succ fuel ih =>
    rw [parseStrictly, parseAll]
    split
    · rfl
    · rcases parse cursor with ⟨problem | clause, after⟩
      · by_cases fatal : problem.isFatal = true
        · simp only [if_pos fatal]
          rfl
        · simp only [if_neg fatal]
          rfl
      · simp only [ih after, Prod.map_fst, Prod.map_snd, id_eq, List.filterMap_cons, fault?,
          Except.toOption]
        cases (parseAll fuel after).1.filterMap fault? <;> cases (parseAll fuel after).2 <;> rfl

end Clause

namespace Program

/-- Tokens of a text, one behind the other, and the clause or the error that they give. -/
structure Segment where
  tokens : List Token
  outcome : Except ParseError Clause

/-- Well-formed tokens give the one clause that is read from their part of the text alone, but for
the numbers of its wildcards. Others give an error at one of them or at the end of the input. -/
inductive Segment.Faithful (text : String) : Segment → Prop where
  | read {tokens : List Token} {clause : Clause} {wildcards : Nat} (some : tokens ≠ [])
      (formed : ∀ token ∈ tokens, token.problem? = none)
      (alone : readStrict (String.ofList (sourceOf text.toList tokens)) =
        .ok ⟨ofClauses [clause], []⟩) :
      Faithful text ⟨tokens, .ok (clause.rename (.renumber (· + wildcards)))⟩
  | faulty {tokens : List Token} {error : ParseError} (some : tokens ≠ [])
      (located : error.token ∈ tokens ∨ error.token = finishOf text) :
      Faithful text ⟨tokens, .error error⟩

theorem Segment.Faithful.nonempty {segment : Segment} (faithful : segment.Faithful text) :
    segment.tokens ≠ [] := by
  cases faithful <;> assumption

/-- Reading goes to the end, or it ends at once at an integer with too many digits that is still
ahead. -/
inductive Stops : List Token → Option Problem → Prop where
  | atEnd : Stops [] none
  | beyond {rest : List Token} {problem : Problem} (ahead : problem.token ∈ rest)
      (fatal : problem.isFatal = true) : Stops rest (some problem)

/-- The rest of a text begins with a segment behind which reading goes on, or reading ends at once. -/
theorem exists_segment {before : List Token} (some : cursor.upcoming ≠ [])
    (ended : cursor.finish = finishOf text)
    (place : scan .start text.toList = before ++ cursor.upcoming) :
    (∃ (segment : Segment) (outcome : Except Problem Clause) (after : Cursor),
      segment.Faithful text ∧ segment.outcome = outcome.mapError (.ofProblem (Text.lines text)) ∧
        cursor.upcoming = segment.tokens ++ after.upcoming ∧ after.finish = cursor.finish ∧
          ∀ fuel, Clause.parseAll (fuel + 1) cursor =
            (Clause.parseAll fuel after).map (outcome :: ·) id) ∨
      ∃ problem, Stops cursor.upcoming (.some problem) ∧
        ∀ fuel, Clause.parseAll (fuel + 1) cursor = ([], .some problem) := by
  have sound : cursor.Sound := by
    refine ⟨ended ▸ rfl, fun token member => ?_⟩
    exact Source.spelled_scan (place ▸ List.mem_append_right before member)
  have more : ¬cursor.upcoming.isEmpty = true := by simpa using some
  rcases ran : Clause.parse cursor with ⟨problem | clause, after⟩
  · obtain ⟨used, nonempty, split, finish, located⟩ := Clause.error_parse sound some ran
    by_cases fatal : problem.isFatal = true
    · -- The end of the input is no integer.
      have ahead : problem.token ∈ used := by
        refine located.resolve_right fun last => ?_
        have unread := problem.unread fatal
        rw [last, ended] at unread
        cases unread
      refine .inr ⟨problem, .beyond (split ▸ List.mem_append_left _ ahead) fatal, fun fuel => ?_⟩
      rw [Clause.parseAll, if_neg more, ran]
      exact if_pos fatal
    · let error := ParseError.ofProblem (Text.lines text) problem
      have located : error.token ∈ used ∨ error.token = finishOf text := ended ▸ located
      refine .inl ⟨⟨used, .error error⟩, .error problem, Clause.recover cursor after,
        .faulty nonempty located, rfl, split, finish, fun fuel => ?_⟩
      rw [Clause.parseAll, if_neg more, ran]
      exact if_neg fatal
  · obtain ⟨used, dot, passes, kind⟩ := Closing.closes cursor clause after sound ran
    have split := passes.split
    have whole := place
    rw [split, ← List.append_assoc] at whole
    have ran' : Clause.parse ⟨used ++ [dot] ++ after.upcoming, finishOf text, cursor.wildcards⟩ =
        (.ok clause, ⟨after.upcoming, finishOf text, after.wildcards⟩) := by
      rw [← split, ← ended, ran, ← passes.finish]
    obtain ⟨alone, strict, rfl⟩ := Clause.read_alone whole kind passes.formed ran'
    exact .inl ⟨⟨used ++ [dot], .ok _⟩, .ok _, after, .read (by simp) passes.formed strict, rfl,
      split, passes.finish, fun fuel => by rw [Clause.parseAll, if_neg more, ran]⟩

/-- The rest of a text is read as consecutive segments. No more are there than tokens, because none of
them is empty. -/
theorem exists_segments (fuel : Nat) {before : List Token} (ended : cursor.finish = finishOf text)
    (place : scan .start text.toList = before ++ cursor.upcoming)
    (enough : cursor.upcoming.length ≤ fuel) :
    ∃ (segments : List Segment) (rest : List Token),
      cursor.upcoming = segments.flatMap Segment.tokens ++ rest ∧
      (∀ segment ∈ segments, segment.Faithful text) ∧
      (Clause.parseAll fuel cursor).1.map (Except.mapError (.ofProblem (Text.lines text))) =
        segments.map Segment.outcome ∧ Stops rest (Clause.parseAll fuel cursor).2 := by
  induction fuel generalizing cursor before with
  | zero =>
    have none := List.length_eq_zero_iff.mp (Nat.le_zero.mp enough)
    exact ⟨[], [], none, by simp, rfl, .atEnd⟩
  | succ fuel ih =>
    by_cases empty : cursor.upcoming = []
    · refine ⟨[], [], empty, by simp, ?_⟩
      rw [Clause.parseAll, if_pos (by simp [empty])]
      exact ⟨rfl, .atEnd⟩
    rcases exists_segment empty ended place with
      ⟨first, outcome, after, faithful, same, split, finish, step⟩ | ⟨problem, stops, step⟩
    · have fewer : after.upcoming.length ≤ fuel := by
        have := List.length_pos_of_ne_nil faithful.nonempty
        rw [split, List.length_append] at enough
        omega
      obtain ⟨segments, rest, tokens, all, outcomes, stops⟩ :=
        ih (finish.trans ended) (by rw [place, split, ← List.append_assoc]) fewer
      refine ⟨first :: segments, rest, ?_, ?_, ?_, ?_⟩
      · rw [split, tokens, List.flatMap_cons, List.append_assoc]
      · simpa using ⟨faithful, all⟩
      · rw [step, Prod.map_fst, List.map_cons, List.map_cons, outcomes, same]
      · rw [step]
        exact stops
    · refine ⟨[], cursor.upcoming, rfl, by simp, ?_⟩
      rw [step]
      exact ⟨rfl, stops⟩

/-- How problems are reported does not matter to the clauses that are read. -/
theorem toOption_mapError (outcomes : List (Except Problem Clause)) (f : Problem → ParseError) :
    (outcomes.map (Except.mapError f)).filterMap Except.toOption =
      outcomes.filterMap Except.toOption := by
  rw [List.filterMap_map]
  exact List.filterMap_congr fun outcome _ => by cases outcome <;> rfl

/-- Strict reading gives the first error of a clause, or what lenient reading gives if there is none. -/
theorem readStrict_eq (text : String) :
    readStrict text = match (readClauses text).1.filterMap Clause.fault? with
      | [] => readLenient text
      | error :: _ => .error error := by
  have left (outcomes : List (Except Problem Clause)) (f : Problem → ParseError) :
      (outcomes.map (Except.mapError f)).filterMap Clause.fault? =
        (outcomes.filterMap Clause.fault?).map f := by
    rw [List.filterMap_map, List.map_filterMap]
    exact List.filterMap_congr fun outcome _ => by cases outcome <;> rfl
  rw [readStrict, Clause.parseStrictly_eq, readLenient, readClauses]
  obtain ⟨outcomes, stop⟩ := Clause.parseAll (Source.Parser.start text).upcoming.length
    (Source.Parser.start text)
  cases stop <;> simp only [Prod.map, Option.map, Reading.ofOutcomes, toOption_mapError, left] <;>
    cases outcomes.filterMap Clause.fault? <;> rfl

/-- Every text is read as consecutive segments, up to an integer with too many digits if there is one
that ends the reading. -/
theorem readLenient_segments (text : String) :
    ∃ (segments : List Segment) (rest : List Token),
      (Source.tokenize text).significant.tokens = segments.flatMap Segment.tokens ++ rest ∧
      (∀ segment ∈ segments, segment.Faithful text) ∧
      (rest = [] ∧ readLenient text = .ok (.ofOutcomes (segments.map Segment.outcome)) ∨
        ∃ error, error.token ∈ rest ∧ error.isFatal = true ∧ readLenient text = .error error) ∧
      readStrict text = match (segments.map Segment.outcome).filterMap Clause.fault? with
        | [] => readLenient text
        | error :: _ => .error error := by
  have start := Source.start_eq text
  obtain ⟨segments, rest, tokens, faithful, outcomes, stops⟩ :=
    @exists_segments (Source.Parser.start text) text _ [] (by rw [start])
      (by rw [start, List.nil_append]) (Nat.le_refl _)
  have clauses : (readClauses text).1 = segments.map Segment.outcome := outcomes
  refine ⟨segments, rest, tokens, faithful, ?_, clauses ▸ readStrict_eq text⟩
  have stopped : (readClauses text).2 =
      (Clause.parseAll (Source.Parser.start text).upcoming.length
        (Source.Parser.start text)).2.map (.ofProblem (Text.lines text)) := rfl
  generalize (Clause.parseAll (Source.Parser.start text).upcoming.length
    (Source.Parser.start text)).2 = stop at stops stopped
  unfold readLenient
  rw [show readClauses text = (segments.map Segment.outcome, _) from Prod.ext clauses stopped]
  cases stops with
  | atEnd => exact .inl ⟨rfl, rfl⟩
  | beyond ahead fatal => exact .inr ⟨_, ahead, fatal, rfl⟩

end Program

end AgentSpeak

namespace AgentSpeak.Program

open Source (Answers ParseError Tiles scan tokenize)
open Source.Parser

variable {text : String}

/-- The errors of a program are problems of its clauses, at tokens of the text or at its end. -/
theorem located_of_readClauses {error : ParseError}
    (met : .error error ∈ (readClauses text).1 ∨ (readClauses text).2 = some error) :
    error.Located text := by
  have start := Source.start_eq text
  obtain ⟨segments, rest, tokens, faithful, outcomes, stops⟩ :=
    @exists_segments (Source.Parser.start text) text _ [] (by rw [start])
      (by rw [start, List.nil_append]) (Nat.le_refl _)
  replace tokens : scan .start text.toList = segments.flatMap Segment.tokens ++ rest := by
    rw [← tokens, start]
  have clauses : (readClauses text).1 = segments.map Segment.outcome := outcomes
  rcases met with listed | last
  · obtain ⟨problem, rfl⟩ : ∃ problem, error = .ofProblem (Text.lines text) problem := by
      obtain ⟨_ | clause, -, same⟩ := List.mem_map.mp listed
      · exact ⟨_, (Except.error.inj same).symm⟩
      · cases same
    rw [clauses] at listed
    obtain ⟨⟨used, outcome⟩, inside, rfl⟩ := List.mem_map.mp listed
    refine Source.located_ofProblem ?_
    cases faithful _ inside with
    | faulty some located =>
      refine located.imp_left fun own => ?_
      exact tokens ▸ List.mem_append_left rest (List.mem_flatMap_of_mem inside own)
  · obtain ⟨problem, stopped, rfl⟩ := Option.map_eq_some_iff.mp last
    rw [stopped] at stops
    cases stops with
    | beyond ahead fatal =>
      exact Source.located_ofProblem (.inl (tokens ▸ List.mem_append_right _ ahead))

theorem mem_of_fault {outcomes : List (Except ParseError Clause)} {error : ParseError}
    (fault : error ∈ outcomes.filterMap Clause.fault?) : .error error ∈ outcomes := by
  obtain ⟨outcome, listed, same⟩ := List.mem_filterMap.mp fault
  cases outcome with
  | ok clause => cases same
  | error other => exact Option.some.inj same ▸ listed

/-- Lenient reading of a program gives what has been read, with errors that are located, or the error
that ended it at once. -/
theorem answers_readLenient (text : String) : Answers (readLenient text) text ∧
    ∀ reading ∈ (readLenient text).toOption, ∀ error ∈ reading.errors, error.Located text := by
  rw [readLenient]
  split
  next outcomes same =>
    refine ⟨.inl ⟨_, rfl⟩, ?_⟩
    rintro _ ⟨⟩ error recorded
    exact located_of_readClauses (.inl (same ▸ mem_of_fault recorded))
  next stopped =>
    exact ⟨.inr ⟨_, rfl, located_of_readClauses (.inr (congrArg Prod.snd stopped))⟩, nofun⟩

/-- Strict reading of a program gives it or the error of its first faulty clause. -/
theorem answers_readStrict (text : String) : Answers (readStrict text) text := by
  rw [readStrict_eq]
  split
  next => exact (answers_readLenient text).1
  next error others found =>
    exact .inr ⟨error, rfl, located_of_readClauses (.inl (mem_of_fault (by simp [found])))⟩

/-- The tokens of a text tile it, and whatever is read from it is a value or an error that lies at one
of them or at the end. -/
theorem reads_located (text : String) :
    Tiles (tokenize text) text.toList ∧
      Answers (readStrict text) text ∧ Answers (readLenient text) text ∧
      (∀ reading ∈ (readLenient text).toOption, ∀ error ∈ reading.errors, error.Located text) ∧
      Answers (Term.read text) text ∧ Answers (Formula.read text) text ∧
      Answers (Trigger.read text) text :=
  ⟨Source.tokenize_tiles text, answers_readStrict text, (answers_readLenient text).1,
    (answers_readLenient text).2, answers_read Term.parse text, answers_read Formula.parse text,
    answers_read Trigger.parse text⟩

end AgentSpeak.Program
