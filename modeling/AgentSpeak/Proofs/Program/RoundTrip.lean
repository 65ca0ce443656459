import AgentSpeak.Proofs.Program.Plans
import AgentSpeak.Proofs.Program.Wildcards

/-!
Programs read back from their own text. A program that was read is read again, with its formulas
regrouped to the left and other numbers for its wildcards, if its terms are read back from their own texts
and each statement shows what it is.
-/

namespace AgentSpeak

open Source (Token Kind Cursor Position Problem Passes scan scan_blank scan_skipped lex)
open Source.Parser
open Renames (Distinct Renumbered distinct_pair_iff)

namespace Program

/-- The clauses of a program in the order of its text. -/
def clauses (program : Program) : List Clause :=
  program.beliefs.map .belief ++ program.rules.map .rule ++ program.goals.map .goal ++
    program.plans.map .plan

/-- A program with its formulas regrouped to the left. -/
def reassociate (program : Program) : Program :=
  { program with
    rules := program.rules.map Rule.reassociate
    plans := program.plans.map Plan.reassociate }

theorem ofClauses_clauses (program : Program) : ofClauses program.clauses = program := by
  obtain ⟨beliefs, rules, goals, plans⟩ := program
  simp [ofClauses, clauses, List.filterMap_append, List.filterMap_map, Function.comp_def,
    Clause.belief?, Clause.rule?, Clause.goal?, Clause.plan?]

theorem ofClauses_reassociate (program : Program) :
    ofClauses (program.clauses.map Clause.reassociate) = program.reassociate := by
  have same : program.clauses.map Clause.reassociate = program.reassociate.clauses := by
    simp [clauses, reassociate, Clause.reassociate, Function.comp_def]
  rw [same, ofClauses_clauses]

theorem mem_clauses_ofClauses {clauses : List Clause} {clause : Clause} :
    clause ∈ (ofClauses clauses).clauses ↔ clause ∈ clauses := by
  have belief (clause : Clause) (fact : Term) : clause.belief? = some fact ↔ clause = .belief fact := by
    cases clause <;> simp [Clause.belief?]
  have rule (clause : Clause) (defined : Rule) : clause.rule? = some defined ↔ clause = .rule defined := by
    cases clause <;> simp [Clause.rule?]
  have goal (clause : Clause) (literal : Term) : clause.goal? = some literal ↔ clause = .goal literal := by
    cases clause <;> simp [Clause.goal?]
  have plan (clause : Clause) (defined : Plan) : clause.plan? = some defined ↔ clause = .plan defined := by
    cases clause <;> simp [Clause.plan?]
  cases clause <;> simp [Program.clauses, ofClauses, List.mem_filterMap, belief, rule, goal, plan]

/-- A line without tokens. -/
def Skipped (line : String) : Prop :=
  ∀ position more, scan position (line.toList ++ '\n' :: more) =
    scan (position.after (line.toList ++ ['\n'])) more

theorem skipped_blank : Skipped "" :=
  fun position more => scan_blank (by decide) position more

theorem skipped_headings :
    ∀ heading ∈ ["// Beliefs", "// Rules", "// Goals", "// Plans"], Skipped heading := by
  have comments : ∀ heading ∈ ["// Beliefs", "// Rules", "// Goals", "// Plans"],
      (∀ token ∈ lex .start (heading.toList ++ ['\n']), token.isSkipped = true) ∧
        ∀ last ∈ (lex .start (heading.toList ++ ['\n'])).getLast?, last.kind = .whitespace := by
    decide
  intro heading listed position more
  obtain ⟨skipped, ends⟩ := comments heading listed
  have scanned := scan_skipped skipped ends position more
  rwa [List.append_assoc] at scanned

/-- Lines that hold clauses one behind another, with lines without tokens between them. -/
inductive Lines : List String → List Clause → Prop where
  | none : Lines [] []
  | clause (clause : Clause) {lines : List String} {clauses : List Clause} (rest : Lines lines clauses) :
      Lines (clause.render :: lines) (clause :: clauses)
  | skipped (line : String) {lines : List String} {clauses : List Clause} (skipped : Skipped line)
      (rest : Lines lines clauses) : Lines (line :: lines) clauses

variable {lines others : List String} {clauses more : List Clause}

theorem Lines.append (first : Lines lines clauses) (second : Lines others more) :
    Lines (lines ++ others) (clauses ++ more) := by
  induction first with
  | none => exact second
  | clause clause _ ih => exact .clause clause ih
  | skipped line skipped _ ih => exact .skipped line skipped ih

theorem lines_render (clauses : List Clause) : Lines (clauses.map Clause.render) clauses := by
  induction clauses with
  | nil => exact .none
  | cons clause rest ih => exact .clause clause ih

theorem lines_headed {heading : String} (skipped : Skipped heading) (clauses : List Clause) :
    Lines (headed heading (clauses.map Clause.render)) clauses := by
  rw [headed]
  split
  next none =>
    obtain rfl : clauses = [] := by simpa using none
    exact .none
  next =>
    have last : Lines [""] [] := .skipped "" skipped_blank .none
    have whole := (lines_render clauses).append last
    rw [List.append_nil] at whole
    exact .skipped heading skipped whole

theorem lines_plans (plans : List Plan) :
    Lines (plans.flatMap fun plan => [plan.render, ""]) (plans.map .plan) := by
  induction plans with
  | nil => exact .none
  | cons plan rest ih => exact .clause (.plan plan) (.skipped "" skipped_blank ih)

theorem lines_renderLines (program : Program) : Lines program.renderLines program.clauses := by
  have plans : Lines (if program.plans.isEmpty then []
      else "// Plans" :: program.plans.flatMap fun plan => [plan.render, ""])
      (program.plans.map .plan) := by
    split
    next none =>
      rw [List.isEmpty_iff.mp none]
      exact .none
    next => exact .skipped _ (skipped_headings _ (by simp)) (lines_plans _)
  have beliefs := lines_headed (skipped_headings "// Beliefs" (by simp)) (program.beliefs.map .belief)
  have rules := lines_headed (skipped_headings "// Rules" (by simp)) (program.rules.map .rule)
  have goals := lines_headed (skipped_headings "// Goals" (by simp)) (program.goals.map .goal)
  rw [List.map_map] at beliefs rules goals
  exact ((beliefs.append rules).append goals).append plans

/-- Lines with a blank one at the end and another before it, or none. -/
def Closed (lines : List String) : Prop :=
  lines = [] ∨ ∃ front, front ≠ [] ∧ lines = front ++ [""]

theorem Closed.append (first : Closed lines) (second : Closed others) : Closed (lines ++ others) := by
  rcases second with rfl | ⟨front, some, rfl⟩
  · rwa [List.append_nil]
  · exact .inr ⟨lines ++ front, by simp [some], (List.append_assoc ..).symm⟩

theorem closed_headed (heading : String) (lines : List String) : Closed (headed heading lines) := by
  rw [headed]
  split
  · exact .inl rfl
  · exact .inr ⟨heading :: lines, List.cons_ne_nil _ _, rfl⟩

/-- The last line of a program is blank. -/
theorem closed_renderLines (program : Program) : Closed program.renderLines := by
  refine (((closed_headed _ _).append (closed_headed _ _)).append (closed_headed _ _)).append ?_
  split
  · exact .inl rfl
  next some =>
    have split := List.dropLast_append_getLast (show program.plans ≠ [] by simpa using some)
    rw [← split, List.flatMap_append, List.flatMap_singleton]
    exact .inr ⟨"// Plans" :: (program.plans.dropLast.flatMap (fun plan => [plan.render, ""]) ++
      [(program.plans.getLast (by simpa using some)).render]), List.cons_ne_nil _ _, by simp⟩

/-- Without the blank line at the end the clauses are the same. -/
theorem Lines.front {front : List String} (held : Lines lines clauses) (split : lines = front ++ [""]) :
    Lines front clauses := by
  induction held generalizing front with
  | none => simp at split
  | clause clause rest ih =>
    cases front with
    | nil =>
      have blank : clause.render = "" := (List.cons.inj split).1
      have ends : '.' ∈ clause.render.toList := by
        cases clause <;> simp [Clause.render, Rule.render, Plan.render]
      simp [blank] at ends
    | cons line front =>
      obtain ⟨rfl, inner⟩ := List.cons.inj split
      exact .clause clause (ih inner)
  | skipped line skipped rest ih =>
    cases front with
    | nil =>
      obtain ⟨-, rfl⟩ := List.cons.inj split
      exact rest
    | cons line front =>
      obtain ⟨rfl, inner⟩ := List.cons.inj split
      exact .skipped _ skipped (ih inner)

/-- The text of lines, with an end for each one. -/
def textOf (lines : List String) : List Char :=
  lines.flatMap fun line => line.toList ++ ['\n']

theorem textOf_eq_intercalate (some : lines ≠ []) :
    ("\n".intercalate lines ++ "\n").toList = textOf lines := by
  induction lines with
  | nil => exact absurd rfl some
  | cons line rest ih =>
    cases rest with
    | nil => simp [textOf]
    | cons next rest =>
      have behind := ih (List.cons_ne_nil _ _)
      simp only [String.toList_append, String.toList_intercalate, List.map_cons,
        List.intercalate_cons_cons, textOf, List.flatMap_cons] at behind ⊢
      rw [List.append_assoc, behind]
      rfl

theorem distinct_map_reassociate (distinct : Distinct clauses) :
    Distinct (clauses.map Clause.reassociate) := by
  show (numbers ((clauses.map Clause.reassociate).flatMap Clause.vars)).Nodup
  simp only [List.flatMap_map, Clause.vars_reassociate]
  exact distinct

/-- The clauses of some lines are read one after the other. -/
theorem Lines.read (held : Lines lines clauses)
    (each : ∀ clause ∈ clauses, clause.Legible ∧ clause.Survives) (distinct : Distinct clauses)
    {finish : Token} (ended : finish.kind = .endOfInput) (position : Position) (w fuel : Nat)
    (enough : (scan position (textOf lines)).length ≤ fuel) :
    ∃ others, Clause.parseStrictly fuel ⟨scan position (textOf lines), finish, w⟩ = .ok others ∧
      Renumbered (clauses.map Clause.reassociate) others := by
  induction held generalizing position w fuel with
  | none =>
    refine ⟨[], ?_, id, rfl⟩
    cases fuel <;> rfl
  | @skipped line lines clauses skipped rest ih =>
    have text : textOf (line :: lines) = line.toList ++ '\n' :: textOf lines := by
      rw [textOf, List.flatMap_cons, List.append_assoc]
      rfl
    rw [text, skipped] at enough ⊢
    exact ih each distinct _ w fuel enough
  | @clause clause lines clauses rest ih =>
    obtain ⟨⟨legible, survives⟩, others⟩ := List.forall_mem_cons.mp each
    have parts : Distinct (clause, clauses) := distinct
    obtain ⟨inClause, inRest, -⟩ := distinct_pair_iff.mp parts
    have text : textOf (clause.render :: lines) = (clause.render.toList ++ ['\n']) ++ textOf lines :=
      List.flatMap_cons
    rw [text] at enough ⊢
    have taken : Takes fuel Clause.parse (fun _ _ _ => True) (clause.render.toList ++ ['\n'])
        (Renumbered clause.reassociate) := Clause.takes_parse legible survives inClause
    obtain ⟨value, count, own, ran⟩ := taken position (textOf lines) finish w ended trivial enough
    obtain ⟨used, dot, passes, -⟩ := Closing.closes _ value _ (sound_scan ended _ _ w) ran
    have split := passes.split
    have length := congrArg List.length split
    simp only [List.length_append, List.length_singleton] at length
    obtain ⟨fuel, rfl⟩ := Nat.exists_eq_add_one_of_ne_zero (show fuel ≠ 0 by omega)
    obtain ⟨found, done, renumbered⟩ := ih others inRest
      (position.after (clause.render.toList ++ ['\n'])) count fuel (by omega)
    refine ⟨value :: found, ?_, own.cons renumbered (distinct_map_reassociate distinct)⟩
    have some : ¬(scan position (clause.render.toList ++ ['\n'] ++ textOf lines)).isEmpty = true := by
      intro none
      rw [List.isEmpty_iff.mp none] at length
      exact absurd length (by rw [List.length_nil]; omega)
    rw [Clause.parseStrictly, if_neg some, ran]
    simp only [done]
    rfl

/-- The text of a program is made of lines that hold its clauses. -/
theorem exists_lines (program : Program) :
    ∃ lines, Lines lines program.clauses ∧ program.render.toList = textOf lines := by
  have held := lines_renderLines program
  rw [render]
  rcases closed_renderLines program with none | ⟨front, some, split⟩
  · rw [none] at held ⊢
    exact ⟨[], held, rfl⟩
  · refine ⟨front, held.front split, ?_⟩
    simp only [split, List.dropLast_concat]
    rw [if_neg (by simp), textOf_eq_intercalate some]

theorem legible_parseStrictly (fuel : Nat) {cursor : Cursor} (lexed : cursor.Lexed)
    (done : Clause.parseStrictly fuel cursor = .ok clauses) : ∀ clause ∈ clauses, clause.Legible := by
  induction fuel generalizing cursor clauses with
  | zero =>
    cases done
    exact nofun
  | succ fuel ih =>
    rw [Clause.parseStrictly] at done
    split at done
    · cases done
      exact nofun
    · split at done
      next clause after ran =>
        cases rest : Clause.parseStrictly fuel after with
        | error problem =>
          rw [rest] at done
          cases done
        | ok found =>
          rw [rest] at done
          cases done
          obtain ⟨used, passes⟩ := Orderly.passes lexed.sound ran
          exact List.forall_mem_cons.mpr
            ⟨Clause.delivers_parse cursor clause after lexed ran, ih (passes.lexed lexed) rest⟩
      next => cases done

variable {text : String} {strict : Bool} {reading : Reading}

theorem legible_of_readStrict (done : readStrict text = .ok reading) :
    ∀ clause ∈ reading.program.clauses, clause.Legible := by
  have lexed : (Source.Parser.start text).Lexed := by
    rw [Source.start_eq]
    exact ⟨rfl, fun token => Source.named_scan⟩
  rw [readStrict] at done
  split at done
  next clauses ran =>
    cases done
    exact fun clause member =>
      legible_parseStrictly _ lexed ran clause (mem_clauses_ofClauses.mp member)
  next => cases done

theorem read_of_readStrict (done : readStrict text = .ok reading) : read text true = .ok reading := by
  rw [read, if_pos rfl]
  exact done

/-- Each wildcard of the clauses that were read occurs once, and there are finitely many. -/
theorem distinct_of_read (done : read text strict = .ok reading)
    (same : reading.program = ofClauses clauses) :
    Distinct clauses ∧ ∃ high, ∀ n ∈ numbers (Renames.vars clauses), n ≤ high := by
  obtain ⟨high, counted, split, -, numbered⟩ := exists_counted done
  have shuffled := vars_ofClauses_perm counted
  rw [← split, same] at shuffled
  have perm := ((vars_ofClauses_perm clauses).symm.trans shuffled).filterMap Variable.number?
  exact ⟨perm.nodup_iff.mpr (numbered.rising.imp Nat.ne_of_lt), high, fun n member =>
    (numbered.range n (perm.mem_iff.mp member)).2⟩

/-- A program that was read is read back from its text, regrouped to the left and with other numbers for
its wildcards, if its terms are and its statements show what they are. -/
theorem readStrict_render (done : readStrict text = .ok reading)
    (survive : ∀ clause ∈ reading.program.clauses, clause.Survives) :
    ∃ g : Nat → Nat, Function.Injective g ∧ readStrict reading.program.render =
      .ok ⟨reading.program.reassociate.rename (.renumber g), []⟩ := by
  have legible := legible_of_readStrict done
  obtain ⟨distinct, -⟩ :=
    distinct_of_read (read_of_readStrict done) (ofClauses_clauses reading.program).symm
  obtain ⟨lines, held, printed⟩ := exists_lines reading.program
  have start := Source.start_eq reading.program.render
  rw [printed] at start
  obtain ⟨others, ran, renumbered⟩ := held.read
    (fun clause member => ⟨legible clause member, survive clause member⟩) distinct
    (show (Source.finishOf reading.program.render).kind = .endOfInput from rfl) .start 0 _ (Nat.le_refl _)
  have again : readStrict reading.program.render = .ok ⟨ofClauses others, []⟩ := by
    rw [readStrict, start]
    simp only [ran]
  obtain ⟨distinct', high, bounded⟩ := distinct_of_read (read_of_readStrict again) rfl
  obtain ⟨g, one, rfl⟩ := renumbered.injective distinct' bounded
  refine ⟨g, one, again.trans ?_⟩
  have moved := ofClauses_rename (.renumber g) (reading.program.clauses.map Clause.reassociate)
  rw [ofClauses_reassociate] at moved
  exact congrArg (fun program => Except.ok (Reading.mk program [])) moved

/-- A plan whose body begins with a relation of a negative number. -/
def negativeFirst : Program :=
  { empty with plans := [⟨.goal (.atom "g"), .truth,
      [.constraint .less (.number (.int (-1))) (.var ⟨"X", []⟩)], none⟩] }

/-- Behind a minus sign a statement is a belief to take back, so such a plan is not read from its text,
though each of its terms is. -/
theorem readStrict_render_negativeFirst :
    readStrict "+!g <- (-1) < X." = .ok ⟨negativeFirst, []⟩ ∧
      ((Term.number (.int (-1))).Survives ∧ (Term.var ⟨"X", []⟩).Survives) ∧
      negativeFirst.render = "// Plans\n+!g\n    <- -1 < X.\n" ∧
      ∃ error, readStrict negativeFirst.render = .error error :=
  ⟨rfl, ⟨⟨_, rfl, id, Function.injective_id, rfl⟩, _, rfl, id, Function.injective_id, rfl⟩, rfl, _, rfl⟩

end Program

end AgentSpeak
