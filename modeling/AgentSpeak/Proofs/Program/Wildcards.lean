import AgentSpeak.Proofs.Formula.Grouping
import AgentSpeak.Proofs.Program.Segments
import AgentSpeak.Proofs.Source.Malformed
import AgentSpeak.Proofs.Term.Naming

/-!
Each wildcard of a program is a variable of its own. The count of wildcards never goes back, neither
where a parenthesis is read a second time nor behind a clause that is left out. So the numbers of the
wildcards rise in the order of the text, within a clause and from one clause to the next.
-/

namespace AgentSpeak

open Source (Token Kind Parser Cursor Problem ParseError Surroundings)
open Source.Parser

/-- A name has letters, digits and underscores only. -/
theorem IsWord.free {name : String} (word : IsWord name) : '#' ∉ name.toList := by
  intro member
  cases text : name.toList with
  | nil => simp [text] at member
  | cons c rest =>
    rw [IsWord, text, isWord, Bool.and_eq_true, List.all_eq_true] at word
    rw [text, List.mem_cons] at member
    rcases member with rfl | later
    · exact absurd word.1 (by decide)
    · exact absurd (word.2 _ later) (by decide)

theorem Term.Legible.isRead {term : Term} (legible : term.Legible) : ∀ v ∈ term.vars, v.IsRead :=
  fun v member => ⟨(legible.named v member).2, (legible.named v member).1.free⟩

theorem Formula.Legible.isRead {formula : Formula} (legible : formula.Legible) :
    ∀ v ∈ formula.vars, v.IsRead := by
  intro v member
  rw [vars_eq_flatMap, List.mem_flatMap] at member
  obtain ⟨term, present, occurs⟩ := member
  exact (legible.terms term present).isRead v occurs

/-- Variables that were read one after the other while the count of wildcards went from one number
to another. -/
structure Counted (low high : Nat) (vs : List Variable) : Prop where
  read : ∀ v ∈ vs, v.IsRead
  numbered : Numbered low high vs

section Counted

variable {low middle high : Nat} {vs ws : List Variable}

theorem counted_nil (low high : Nat) : Counted low high [] :=
  ⟨nofun, numbered_nil low high⟩

theorem Counted.above (counted : Counted middle high vs) (lower : low ≤ middle) :
    Counted low high vs :=
  ⟨counted.read, counted.numbered.above lower⟩

theorem Counted.append (first : Counted low middle vs) (second : Counted middle high ws)
    (lower : low ≤ middle) (upper : middle ≤ high) : Counted low high (vs ++ ws) :=
  ⟨List.forall_mem_append.mpr ⟨first.read, second.read⟩,
    first.numbered.append second.numbered lower upper⟩

/-- Some of the variables may have been left out. -/
theorem Counted.sublist (counted : Counted low high ws) (some : vs.Sublist ws) :
    Counted low high vs := by
  have fewer : (numbers vs).Sublist (numbers ws) := some.filterMap _
  exact ⟨fun v member => counted.read v (some.subset member),
    counted.numbered.rising.sublist fewer,
    fun n member => counted.numbered.range n (fewer.subset member)⟩

end Counted

namespace Source.Parser

variable {α β : Type} {parser : Parser α} {before : List Variable} {read : α → List Variable}
  {vars : β → List Variable}

/-- A parser that reads no wildcard. -/
class Quiet (parser : Parser α) : Prop where
  keeps : ∀ cursor, (parser cursor).2.wildcards = cursor.wildcards

instance (value : α) : Quiet (pure value : Parser α) :=
  ⟨fun _ => rfl⟩

instance (problem : Problem) : Quiet (throw problem : Parser α) :=
  ⟨fun _ => rfl⟩

instance {next : α → Parser β} [first : Quiet parser] [rest : ∀ value, Quiet (next value)] :
    Quiet (parser >>= next) := by
  refine ⟨fun cursor => ?_⟩
  have kept := first.keeps cursor
  rw [run_bind]
  split
  next value after ran =>
    rw [ran] at kept
    exact ((rest value).keeps after).trans kept
  next problem after ran =>
    rw [ran] at kept
    exact kept

instance {condition : Prop} [Decidable condition] {another : Parser α} [Quiet parser]
    [Quiet another] : Quiet (if condition then parser else another) := by
  split <;> infer_instance

instance : Quiet peek := by
  refine ⟨fun cursor => ?_⟩
  rw [run_peek]
  split <;> rfl

instance : Quiet peekSecond := by
  refine ⟨fun cursor => ?_⟩
  rw [run_peekSecond]
  split <;> rfl

instance : Quiet advance := by
  refine ⟨fun cursor => ?_⟩
  cases formed : cursor.token.problem? with
  | none => rw [run_advance formed, behind]
  | some problem => rw [run_advance_malformed formed]

instance : Quiet budget :=
  ⟨fun _ => rfl⟩

instance (expectation : Expectation) : Quiet (fail expectation : Parser α) := by
  unfold fail
  infer_instance

instance (kind : Kind) : Quiet (check kind) := by
  unfold check
  infer_instance

instance (kind : Kind) : Quiet (accept kind) := by
  unfold accept
  infer_instance

instance (kind : Kind) (expectation : Expectation) : Quiet (expect kind expectation) := by
  unfold expect
  infer_instance

/-- Behind variables that were read before, a parser never counts back, and what it gives has some
of these variables and of those that it reads itself. -/
def Continues (before : List Variable) (vars : α → List Variable) (parser : Parser α) : Prop :=
  ∀ low cursor, cursor.Sound → low ≤ cursor.wildcards → Counted low cursor.wildcards before →
    cursor.wildcards ≤ (parser cursor).2.wildcards ∧
      ∀ value, (parser cursor).1 = .ok value → Counted low (parser cursor).2.wildcards (vars value)

/-- A parser counts on, and what it gives has variables that it reads itself. -/
abbrev Counts (vars : α → List Variable) (parser : Parser α) : Prop :=
  Continues [] vars parser

theorem continues_pure {vars : α → List Variable} {value : α}
    (some : (vars value).Sublist before) : Continues before vars (pure value) := by
  refine fun low cursor sound lower counted => ⟨Nat.le_refl _, ?_⟩
  rintro _ ⟨⟩
  exact counted.sublist some

theorem continues_throw {vars : α → List Variable} (problem : Problem) :
    Continues before vars (throw problem) :=
  fun _ _ _ _ _ => ⟨Nat.le_refl _, nofun⟩

/-- The variables of one value after another. -/
theorem Counts.then [Orderly anyToken parser] {next : α → Parser β} (first : Counts read parser)
    (rest : ∀ value, Continues (before ++ read value) vars (next value)) :
    Continues before vars (parser >>= next) := by
  intro low cursor sound lower counted
  obtain ⟨later, own⟩ := first cursor.wildcards cursor sound (Nat.le_refl _) (counted_nil _ _)
  rw [run_bind]
  rcases ran : parser cursor with ⟨problem | value, after⟩
  · rw [ran] at later
    exact ⟨later, nofun⟩
  · rw [ran] at later own
    obtain ⟨used, passes⟩ := Orderly.passes sound ran
    obtain ⟨latest, whole⟩ := rest value low after (passes.sound sound) (Nat.le_trans lower later)
      (counted.append (own value rfl) lower later)
    exact ⟨Nat.le_trans later latest, whole⟩

theorem Quiet.counts [Quiet parser] : Counts (fun _ => []) parser :=
  fun _ cursor _ _ _ => ⟨Nat.le_of_eq (Quiet.keeps cursor).symm, fun _ _ => counted_nil _ _⟩

theorem Quiet.then [Quiet parser] [Orderly anyToken parser] {next : α → Parser β}
    (rest : ∀ value, Continues before vars (next value)) :
    Continues before vars (parser >>= next) :=
  Quiet.counts.then fun value => (List.append_nil before).symm ▸ rest value

theorem continues_fail {vars : α → List Variable} (expectation : Expectation) :
    Continues before vars (fail expectation) :=
  Quiet.then fun _ => continues_throw _

/-- What is made of the value of one parser. -/
theorem Counts.map [Orderly anyToken parser] {f : α → β} (counts : Counts read parser)
    (some : ∀ value, (vars (f value)).Sublist (before ++ read value)) :
    Continues before vars (parser >>= fun value => pure (f value)) :=
  counts.then fun value => continues_pure (some value)

/-- Two runs on the same tokens that agree tell how the first one counts. -/
theorem counts_of_agree (agrees : ∀ finish tokens w, finish.kind = .endOfInput →
      (∀ token ∈ tokens, Term.Spelled token) →
      Agree (Term.twice finish 0) True w tokens tokens parser parser
        fun high value _ => Counted w high (read value)) : Counts read parser := by
  rintro low ⟨tokens, finish, w⟩ sound lower -
  obtain ⟨outcome, left, high, ran, -, later, -, same⟩ :=
    agrees finish tokens w sound.ended sound.spelled
  rw [Term.twice_first, Term.twice_first] at ran
  rw [ran]
  refine ⟨later, ?_⟩
  rintro value rfl
  obtain ⟨_, -, -, -, outcomes⟩ := same (.inl ⟨trivial, rfl⟩)
  cases outcomes with
  | ok counted => exact counted.above lower

end Source.Parser

theorem Term.counts_parse : Counts vars parse :=
  counts_of_agree fun _ tokens w ended spelled =>
    (reads_parse (twice_fit ended 0) (fun _ own => own) _ w _ _ (twice_paired spelled)
      (Nat.lt_succ_self tokens.length)).mono
        fun _ _ _ _ copied => ⟨copied.legible.isRead, copied.numbered⟩

theorem Term.counts_parseLiteral : Counts vars parseLiteral :=
  counts_of_agree fun _ tokens w ended spelled =>
    (reads_literal (twice_fit ended 0) (fun _ own => own)
      (reads_parse (twice_fit ended 0) (fun _ own => own) tokens.length) w _ _ (twice_paired spelled)
      (Nat.lt_succ_self tokens.length)).mono
        fun _ _ _ _ copied => ⟨copied.legible.isRead, copied.numbered⟩

theorem Formula.counts_parse : Counts vars parse :=
  counts_of_agree fun _ tokens w ended spelled =>
    (reads_parse (Term.twice_fit ended 0) rfl (fun _ own => own) _ w _ _ (Term.twice_paired spelled)
      (Nat.lt_succ_self tokens.length)).mono
        fun _ _ _ _ copied => ⟨copied.legible.isRead, copied.numbered⟩

instance : Quiet Trigger.parseSubject := by
  unfold Trigger.parseSubject
  infer_instance

instance : Quiet Trigger.parseChange := by
  unfold Trigger.parseChange
  infer_instance

theorem Trigger.counts_parse : Counts (fun trigger => trigger.literal.vars) parse := by
  rw [parse]
  refine Quiet.then fun change => Quiet.then fun subject => ?_
  exact Term.counts_parseLiteral.map fun literal => List.Sublist.refl _

namespace Statement

/-- A call has variables of the literal that it is written as. -/
theorem vars_ofLiteral_sublist (kind : ActionKind) (literal : Term) :
    (ofLiteral kind literal).vars.Sublist literal.vars := by
  cases literal <;> simp [ofLiteral, Term.literalParts, vars, Term.vars, Term.varsAll]

theorem counts_parseBuiltin : Counts vars parseBuiltin := by
  rw [parseBuiltin]
  refine Quiet.then fun dot => Quiet.then fun name => ?_
  split
  · exact continues_throw _
  · exact Term.counts_parseLiteral.map fun literal => vars_ofLiteral_sublist .builtin literal

theorem counts_parseCondition : Counts Formula.vars parseCondition := by
  rw [parseCondition]
  refine Quiet.then fun _ => Formula.counts_parse.then fun condition => Quiet.then fun _ => ?_
  exact continues_pure (List.Sublist.refl _)

theorem continues_parseBehind (first : Token) (left : Term) :
    Continues left.vars vars (parseBehind first left) := by
  rw [parseBehind]
  refine Quiet.then fun token => ?_
  split
  · refine Quiet.then fun _ => Term.counts_parse.map fun right => ?_
    rw [vars]
  · split
    · exact continues_pure (vars_ofLiteral_sublist .user left)
    · exact continues_throw _

theorem counts_parseCall : Counts vars parseCall := by
  rw [parseCall]
  exact Quiet.then fun first => Term.counts_parse.then fun left => continues_parseBehind first left

section Blocks

variable {body : Parser (List Statement)} [∀ allowed, Orderly allowed body]
  (counts : Counts varsAll body)

include counts

theorem counts_parseBlock : Counts varsAll (parseBlock body) := by
  rw [parseBlock]
  refine Quiet.then fun _ => Quiet.then fun closed => ?_
  split
  · exact continues_pure (List.Sublist.refl [])
  · refine counts.then fun statements => Quiet.then fun _ => ?_
    exact continues_pure (List.Sublist.refl _)

theorem counts_parseLoop : Counts vars (parseLoop body) := by
  rw [parseLoop]
  refine counts_parseCondition.then fun condition => ?_
  refine (counts_parseBlock counts).map fun statements => ?_
  simp [vars]

theorem counts_parseBranch (fuel : Nat) : Counts vars (parseBranch body fuel) := by
  induction fuel with
  | zero => exact continues_fail _
  | succ fuel ih =>
    rw [parseBranch]
    simp only [pure_bind]
    refine Quiet.then fun _ => counts_parseCondition.then fun condition => ?_
    refine (counts_parseBlock counts).then fun positive => Quiet.then fun more => ?_
    split
    · refine Quiet.then fun nested => ?_
      split
      · refine ih.then fun inner => continues_pure ?_
        simp [vars, varsAll]
      · refine (counts_parseBlock counts).then fun negative => continues_pure ?_
        simp [vars]
    · exact continues_pure (by simp [vars, varsAll])

/-- The word `true` alone is no statement and has no variables. -/
theorem counts_parseWith : Counts (fun statement => varsAll statement.toList) (parseWith body) := by
  have whole {parser : Parser Statement} [Orderly anyToken parser] (counts : Counts vars parser) :
      Counts (fun statement => varsAll statement.toList) (do return some (← parser)) :=
    counts.map fun statement => by simp [varsAll]
  have marked {f : Term → Statement} (own : ∀ literal, (f literal).vars = literal.vars) :
      Counts (fun statement => varsAll statement.toList)
        (do let _ ← advance; return some (f (← Term.parseLiteral))) :=
    Quiet.then fun _ => Term.counts_parseLiteral.map fun literal => by simp [varsAll, own]
  rw [parseWith]
  refine Quiet.then fun token => ?_
  split
  case h_1 | h_2 | h_3 | h_4 | h_5 | h_6 => exact marked fun _ => rfl
  next => exact whole counts_parseBuiltin
  next => exact Quiet.then fun fuel => whole (counts_parseBranch counts fuel)
  next => exact Quiet.then fun _ => whole (counts_parseLoop counts)
  next =>
    refine Quiet.then fun second => ?_
    split
    · exact Quiet.then fun _ => continues_pure (List.Sublist.refl [])
    · exact whole counts_parseCall
  next => exact whole counts_parseCall

end Blocks

instance (first : Option Statement) : Quiet (parseMore first) := by
  unfold parseMore
  infer_instance

theorem counts_parseSequence {statement : Parser (Option Statement)}
    [∀ allowed, Orderly allowed statement]
    (counts : Counts (fun found => varsAll found.toList) statement) (fuel : Nat) :
    Counts varsAll (parseSequence statement fuel) := by
  induction fuel with
  | zero => exact continues_pure (List.Sublist.refl [])
  | succ fuel ih =>
    rw [parseSequence]
    refine counts.then fun first => Quiet.then fun more => ?_
    split
    · exact ih.map fun rest => by simp [varsAll_append]
    · exact continues_pure (List.Sublist.refl _)

theorem counts_parseBodyWithin (depth : Nat) : Counts varsAll (parseBodyWithin depth) := by
  induction depth with
  | zero => exact continues_fail _
  | succ depth ih => exact Quiet.then fun fuel => counts_parseSequence (counts_parseWith ih) fuel

theorem counts_parseBody : Counts varsAll parseBody :=
  Quiet.then fun depth => counts_parseBodyWithin depth

end Statement

namespace Plan

theorem counts_parseLabel : Counts (fun label => label.elim [] Term.vars) parseLabel := by
  rw [parseLabel]
  refine Quiet.then fun labelled => ?_
  split
  · exact Term.counts_parseLiteral.map fun literal => List.Sublist.refl _
  · exact continues_pure (List.Sublist.refl [])

theorem counts_parseContext : Counts Formula.vars parseContext := by
  rw [parseContext]
  refine Quiet.then fun limited => ?_
  split
  · exact Formula.counts_parse
  · exact continues_pure (List.Sublist.refl [])

theorem counts_parseBody : Counts Statement.varsAll parseBody := by
  rw [parseBody]
  refine Quiet.then fun acts => ?_
  split
  · exact Statement.counts_parseBody
  · exact continues_pure (List.Sublist.refl [])

theorem counts_parse : Counts (fun plan => (Clause.plan plan).vars) parse := by
  rw [parse]
  refine counts_parseLabel.then fun label => Trigger.counts_parse.then fun trigger => ?_
  refine counts_parseContext.then fun context => counts_parseBody.then fun body => ?_
  exact Quiet.then fun _ => continues_pure (List.Sublist.refl _)

end Plan

namespace Clause

theorem counts_parseGoal : Counts vars parseGoal := by
  rw [parseGoal]
  refine Term.counts_parseLiteral.then fun goal => Quiet.then fun _ => ?_
  exact continues_pure (List.Sublist.refl _)

theorem counts_parseRuleOrBelief : Counts vars parseRuleOrBelief := by
  rw [parseRuleOrBelief]
  refine Quiet.then fun first => Term.counts_parseLiteral.then fun head => ?_
  refine Quiet.then fun defines => ?_
  split
  · refine Formula.counts_parse.then fun body => Quiet.then fun _ => ?_
    exact continues_pure (List.Sublist.refl _)
  · split
    · exact continues_throw _
    · exact Quiet.then fun _ => continues_pure (List.Sublist.refl _)

theorem counts_parse : Counts vars parse := by
  rw [parse]
  refine Quiet.then fun first => ?_
  split
  · exact Quiet.then fun _ => counts_parseGoal
  · exact Plan.counts_parse.map fun plan => List.Sublist.refl _
  · exact Plan.counts_parse.map fun plan => List.Sublist.refl _
  · exact Plan.counts_parse.map fun plan => List.Sublist.refl _
  · exact counts_parseRuleOrBelief

/-- The count of wildcards goes on from clause to clause, over those that are left out as well. -/
theorem counted_parseAll (fuel : Nat) {cursor : Cursor} (sound : cursor.Sound) :
    ∃ high, cursor.wildcards ≤ high ∧ Counted cursor.wildcards high
      (((parseAll fuel cursor).1.filterMap Except.toOption).flatMap vars) := by
  induction fuel generalizing cursor with
  | zero => exact ⟨_, Nat.le_refl _, counted_nil _ _⟩
  | succ fuel ih =>
    rw [parseAll]
    split
    · exact ⟨_, Nat.le_refl _, counted_nil _ _⟩
    next some =>
      have counts := counts_parse _ cursor sound (Nat.le_refl _) (counted_nil _ _)
      rcases ran : parse cursor with ⟨problem | clause, after⟩
      · rw [ran] at counts
        obtain ⟨used, -, split, finish, -⟩ := error_parse sound (by simpa using some) ran
        dsimp only
        split
        · exact ⟨_, Nat.le_refl _, counted_nil _ _⟩
        have resumed : (recover cursor after).Sound := by
          refine ⟨finish ▸ sound.ended, fun token member => sound.spelled token ?_⟩
          exact split ▸ List.mem_append_right used member
        obtain ⟨high, later, rest⟩ := ih resumed
        exact ⟨high, Nat.le_trans counts.1 later, rest.above counts.1⟩
      · rw [ran] at counts
        obtain ⟨used, passes⟩ := Orderly.passes sound ran
        obtain ⟨high, later, rest⟩ := ih (passes.sound sound)
        exact ⟨high, Nat.le_trans counts.1 later,
          (counts.2 clause rfl).append rest counts.1 later⟩

end Clause

theorem Variable.IsWritten.eq_wildcard {v : Variable} (written : v.IsWritten)
    (anonymous : v.isAnonymous = true) : ∃ n, v = wildcard n := by
  rcases written with ⟨bare, -⟩ | wild
  · simp [isAnonymous, bare] at anonymous
  · exact wild

/-- Wildcards that were counted have different names. -/
theorem Counted.nodup_names {low high : Nat} {vs : List Variable} (counted : Counted low high vs) :
    ((vs.filter Variable.isAnonymous).map Variable.name).Nodup := by
  have rising := counted.numbered.rising
  rw [numbers, List.pairwise_filterMap] at rising
  rw [List.Nodup, List.pairwise_map, List.pairwise_filter]
  refine rising.imp_of_mem fun {v w} first second less anonymous anonymous' same => ?_
  obtain ⟨m, rfl⟩ := (counted.read v first).1.eq_wildcard anonymous
  obtain ⟨n, rfl⟩ := (counted.read w second).1.eq_wildcard anonymous'
  have equal := (counted.read _ first).plain.eq_of_name (counted.read _ second).plain same
  have number : m = n := by simpa using congrArg Variable.number? equal
  exact absurd number (Nat.ne_of_lt (less m (by simp) n (by simp)))

namespace Program

variable {text : String} {strict : Bool} {reading : Reading}

/-- What is read strictly is what is read with tolerance. -/
theorem readLenient_of_read (done : read text strict = .ok reading) :
    readLenient text = .ok reading := by
  cases strict with
  | false => exact done
  | true =>
    have done : readStrict text = .ok reading := done
    rw [readStrict_eq] at done
    split at done
    · exact done
    · cases done

/-- What is read with tolerance is what the clauses are that were not left out. -/
theorem program_of_readLenient (done : readLenient text = .ok reading) :
    reading.program = ofClauses ((readClauses text).1.filterMap Except.toOption) := by
  rw [readLenient] at done
  split at done
  next same =>
    cases done
    rw [same]
    rfl
  next => cases done

/-- The clauses of a program that was read have variables that were counted from the beginning. -/
theorem exists_counted (done : read text strict = .ok reading) :
    ∃ high clauses, reading.program = ofClauses clauses ∧
      Counted 0 high (clauses.flatMap Clause.vars) := by
  obtain ⟨high, -, counted⟩ := Clause.counted_parseAll
    (Source.Parser.start text).upcoming.length (sound_start text)
  refine ⟨high, _, program_of_readLenient (readLenient_of_read done), ?_⟩
  rw [readClauses, Prod.map_fst, toOption_mapError]
  exact counted

/-- Variables of programs that are read are written names and wildcards. -/
theorem isRead_of_mem_vars (done : read text strict = .ok reading) :
    ∀ v ∈ reading.program.vars, v.IsRead := by
  obtain ⟨high, clauses, same, counted⟩ := exists_counted done
  intro v member
  rw [same, (vars_ofClauses_perm clauses).mem_iff] at member
  exact counted.read v member

/-- Each wildcard of a program that is read is a variable of its own: no two occurrences of anonymous
variables have the same name, and none has the name of a variable that is not anonymous. -/
theorem wildcards_distinct (done : read text strict = .ok reading) :
    ((reading.program.vars.filter Variable.isAnonymous).map Variable.name).Nodup ∧
      ∀ v ∈ reading.program.vars, v.isAnonymous = true →
        ∀ w ∈ reading.program.vars, w.isAnonymous = false → v.name ≠ w.name := by
  constructor
  · obtain ⟨high, clauses, same, counted⟩ := exists_counted done
    have shuffled := ((vars_ofClauses_perm clauses).filter Variable.isAnonymous).map Variable.name
    rw [same, shuffled.nodup_iff]
    exact counted.nodup_names
  · intro v first anonymous w second named equal
    have read := isRead_of_mem_vars done
    have same := (read v first).plain.eq_of_name (read w second).plain equal
    rw [same, named] at anonymous
    cases anonymous

/-- The sum in parentheses is read twice, and the second clause is left out. -/
theorem wildcards_distinct_skipped : ∃ reading,
    read "p(_, X) :- (_ + 1) > X & q(_).\ns(_ t.\n@l(_) +!g(_) <- if (r(_)) \x7b a(_) \x7d." false =
      .ok reading ∧ reading.errors.length = 1 ∧
      reading.program.vars.map Variable.name =
        ["_#1", "X", "_#3", "X", "_#4", "_#7", "_#8", "_#9", "_#6"] ∧
      ((reading.program.vars.filter Variable.isAnonymous).map Variable.name).Nodup ∧
      ∀ v ∈ reading.program.vars, v.isAnonymous = true →
        ∀ w ∈ reading.program.vars, w.isAnonymous = false → v.name ≠ w.name :=
  have done : read _ false = .ok _ := rfl
  ⟨_, done, by decide +kernel, by decide +kernel, wildcards_distinct done⟩

end Program

end AgentSpeak
