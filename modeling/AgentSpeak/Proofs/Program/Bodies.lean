import AgentSpeak.Proofs.Program.Rereading

namespace AgentSpeak

open Source (Token Kind Parser Cursor Front Leads Starts Opens Divides divides_punctuation)
open Source.Parser
open Renames (Distinct Renumbered distinct_pair_iff)

theorem Term.parse_listed {cursor after : Cursor} {term : Term}
    (ended : cursor.finish.kind = .endOfInput) (done : parse cursor = (.ok term, after)) :
    cursor.token.kind ∈ .minus :: primaryFirsts := by
  obtain ⟨tokens, passes, -, derivation⟩ := derives_parse cursor ended term after done
  obtain ⟨first, rest, rfl, listed⟩ := derivation.begins
  rw [Cursor.token, passes.split]
  exact listed

namespace Statement

variable {bound depth : Nat} {indent : String} {body : List Statement}
  {demand : Source.Demand} {sign : List Char}

/-- No statement begins with a closing brace. -/
theorem refuses_parseWith (inner : Parser (List Statement)) :
    Refuses .closeBrace (parseWith inner) := by
  intro cursor found after ended done
  rw [parseWith] at done
  obtain ⟨token, _, peeked, done⟩ := ok_bind done
  obtain ⟨formed, rfl, rfl⟩ := ok_peek peeked
  refine ⟨formed, fun brace => ?_⟩
  simp only [brace] at done
  obtain ⟨statement, _, called, -⟩ := ok_bind done
  rw [parseCall, run_then (run_peek_formed formed)] at called
  obtain ⟨term, middle, ran, -⟩ := ok_bind called
  have listed := Term.parse_listed ended ran
  exact absurd (brace ▸ listed) (by decide)

theorem run_parseMore_false {cursor : Cursor} (formed : cursor.token.problem? = none)
    (last : cursor.token.kind ∈ [Kind.dot, .closeBrace]) (first : Option Statement) :
    parseMore first cursor = (.ok false, cursor) := by
  have other : cursor.token.kind ≠ .semicolon := fun same => absurd (same ▸ last) (by decide)
  rw [parseMore, run_then (run_accept_false formed other), if_neg Bool.false_ne_true]
  split
  · rw [run_then (run_check formed), run_then (run_check formed)]
    have one : (cursor.token.kind = .dot) ∨ (cursor.token.kind = .closeBrace) := by simpa using last
    rcases one with kind | kind <;> simp [kind]
  · rfl

section Sequences

variable {parser : Parser (Option Statement)} [∀ allowed, Orderly allowed parser]
  {next : Bool → Parser (List Statement)} {given : List Statement → Prop}

/-- Behind a semicolon the sequence goes on. -/
theorem takes_more {text : List Char} (opens : Opens .semicolon sign text)
    (refuses : 0 < bound → Refuses .closeBrace (next true))
    (rest : ∀ less, less < bound → Takes less (next true) demand text given)
    (first : Option Statement) :
    Takes bound (parseMore first >>= next) demand (sign ++ text) given := by
  rw [parseMore, bind_assoc]
  refine takes_accept opens (by decide) fun less fewer => ?_
  rw [if_pos rfl, bind_assoc]
  exact takes_check_refused (refuses (Nat.zero_lt_of_lt fewer)) (rest less fewer)

/-- In front of a full stop or a closing brace the sequence ends. -/
theorem takes_noMore {last : Kind} (listed : last ∈ [Kind.dot, .closeBrace])
    (rest : Takes bound (next false) (Front [last]) [] given) (first : Option Statement) :
    Takes bound (parseMore first >>= next) (Front [last]) [] given := by
  intro position more finish w ended front few
  have same := List.mem_singleton.mp front.listed
  have sure : ∀ kind ∈ [Kind.dot, .closeBrace], kind ∉ [Kind.blockComment, .string, .unknown] := by
    decide
  have formed := Source.formed_of_kind same (sure last listed)
  have stopped := @run_parseMore_false ⟨Source.scan position more, finish, w⟩ formed
    (same ▸ listed) first
  rw [List.nil_append, run_then stopped]
  exact rest position more finish w ended front few

theorem distinct_reassociate_iff :
    Distinct (body.map reassociate) ↔ Distinct body := by
  show (numbers ((body.map reassociate).flatMap vars)).Nodup ↔ (numbers (body.flatMap vars)).Nodup
  simp only [List.flatMap_map, vars_reassociate]

/-- Statements with semicolons between them are taken one after the other. -/
theorem takes_sequence {last : Kind} (divides : Divides .semicolon sign)
    (listed : last ∈ [Kind.dot, .closeBrace]) (refuses : Refuses .closeBrace parser) (some : body ≠ [])
    (each : ∀ statement ∈ body,
      Takes bound parser (Front followers) (render indent statement).toList (Regains statement))
    (distinct : Distinct body) (fuel : Nat) (enough : bound < fuel) :
    Takes bound (parseSequence parser fuel) (Front [last])
      (sign.intercalate (body.map fun statement => (render indent statement).toList))
      (Renumbered (body.map reassociate)) := by
  have ends : ∀ kind ∈ [Kind.dot, .closeBrace], kind ∈ followers := by decide
  induction body generalizing bound fuel with
  | nil => exact absurd rfl some
  | cons statement rest ih =>
    obtain ⟨own, others⟩ := List.forall_mem_cons.mp each
    obtain ⟨fuel, rfl⟩ := Nat.exists_eq_add_one_of_ne_zero (Nat.ne_zero_of_lt enough)
    rw [parseSequence]
    cases rest with
    | nil =>
      rw [List.map_singleton, List.intercalate_singleton]
      refine (own.stricter fun _ _ _ front => ⟨front.detached, ?_⟩).last ?_
      · exact List.mem_singleton.mp front.listed ▸ ends last listed
      · rintro _ ⟨other, rfl, f, rfl⟩
        exact takes_noMore listed (takes_pure ⟨f, rfl⟩) _
    | cons second rest =>
      have parts : Distinct (statement, second :: rest) := distinct
      rw [List.map_cons, List.map_cons, List.intercalate_cons_cons, List.append_assoc]
      refine own.bind (divides.leads (by decide) _) ?_
      rintro _ ⟨other, rfl, renumbered⟩
      -- Each semicolon is a token of its own, so the bound falls, and the fuel lasts for the rest.
      refine takes_more (divides.opens _) (fun some => ?_) (fun less fewer => ?_) _
      · obtain ⟨fuel, rfl⟩ := Nat.exists_eq_add_one_of_ne_zero (show fuel ≠ 0 by omega)
        exact (refuses.bind _).bind _
      · refine (ih (List.cons_ne_nil _ _) ?_ (distinct_pair_iff.mp parts).2.1 fuel ?_).map ?_
        · exact fun statement member => (others statement member).mono fewer.le fun _ same => same
        · omega
        · intro found regained
          exact renumbered.cons regained (distinct_reassociate_iff.mpr distinct)

end Sequences

/-- A statement is taken from its text on any line, where there are at most as many tokens as its blocks
may nest deep. -/
def Taken (statement : Statement) : Prop :=
  ∀ (indent : String) (depth : Nat), (∀ c ∈ indent.toList, Text.isBlank c = true) →
    Takes depth (parseWith (parseBodyWithin depth)) (Front followers) (render indent statement).toList
      (Regains statement)

theorem renderAll_eq_map (indent : String) (body : List Statement) :
    renderAll indent body = body.map (render indent) := by
  induction body with
  | nil => rfl
  | cons statement rest ih => rw [renderAll, ih, List.map_cons]

/-- The text of a plan body, with some sign between its statements. -/
def joined (sign : List Char) (indent : String) (body : List Statement) : List Char :=
  sign.intercalate (body.map fun statement => (render indent statement).toList)

theorem takes_bodyWithin {last : Kind} (each : ∀ statement ∈ body, statement.Taken)
    (distinct : Distinct body) (blank : ∀ c ∈ indent.toList, Text.isBlank c = true)
    (divides : Divides .semicolon sign) (listed : last ∈ [Kind.dot, .closeBrace]) (some : body ≠ [])
    (few : bound ≤ depth) :
    Takes bound (parseBodyWithin (depth + 1)) (Front [last]) (joined sign indent body)
      (Renumbered (body.map reassociate)) := by
  rw [parseBodyWithin]
  refine takes_budget fun less fewer => ?_
  refine takes_sequence divides listed (refuses_parseWith _) some ?_ distinct _ (Nat.lt_succ_self less)
  exact fun statement member => (each statement member indent depth blank).mono
    (Nat.le_trans fewer few) fun _ same => same

/-- Each line of a block begins with the same white space, which may as well stand behind the sign before
it. -/
theorem intercalate_map_append (sign gap : List Char) {lines : List (List Char)} (some : lines ≠ []) :
    sign.intercalate (lines.map (gap ++ ·)) = gap ++ (sign ++ gap).intercalate lines := by
  induction lines with
  | nil => exact absurd rfl some
  | cons line rest ih =>
    cases rest with
    | nil => simp
    | cons next rest =>
      rw [List.map_cons, List.map_cons, List.intercalate_cons_cons, List.intercalate_cons_cons,
        ← List.map_cons, ih (List.cons_ne_nil _ _)]
      simp only [List.append_assoc]

theorem toList_renderBlock (indent : String) (body : List Statement) :
    (renderBlock indent (renderAll (indent ++ "    ") body)).toList =
      if body = [] then ['\x7b', '\n'] ++ ('\n' :: indent.toList ++ ['\x7d'])
      else (['\x7b', '\n'] ++ (indent ++ "    ").toList) ++
        (joined ([';', '\n'] ++ (indent ++ "    ").toList) (indent ++ "    ") body ++
          ('\n' :: indent.toList ++ ['\x7d'])) := by
  split
  next none =>
    subst none
    simp [renderBlock, renderAll]
  next some =>
    have lines : body.map (fun statement => (render (indent ++ "    ") statement).toList) ≠ [] := by
      simpa using some
    have moved := intercalate_map_append [';', '\n'] (indent ++ "    ").toList lines
    simp only [List.map_map, Function.comp_def] at moved
    rw [joined, ← List.append_assoc, ← List.append_assoc, List.append_assoc ['\x7b', '\n'], ← moved]
    simp [renderBlock, renderAll_eq_map, String.toList_intercalate, Function.comp_def]

theorem refuses_parseBodyWithin (depth : Nat) : Refuses .closeBrace (parseBodyWithin (depth + 1)) := by
  intro cursor found after ended done
  rw [parseBodyWithin, run_then (run_budget cursor), parseSequence] at done
  exact (refuses_parseWith _).bind _ cursor found after ended done

theorem blank_deeper (blank : ∀ c ∈ indent.toList, Text.isBlank c = true) :
    ∀ c ∈ (indent ++ "    ").toList, Text.isBlank c = true := by
  intro c member
  rw [String.toList_append, List.mem_append] at member
  exact member.elim (blank c) fun space => by
    obtain rfl : c = ' ' := by simpa using space
    decide

/-- A sign at the end of a line, with the white space that the next line begins with. -/
theorem divides_lineEnd {c : Char} {kind : Kind} (listed : (c, kind) ∈ Source.punctuation)
    {gap : List Char} (blank : ∀ c ∈ gap, Text.isBlank c = true) : Divides kind ([c, '\n'] ++ gap) := by
  have wider : ∀ c ∈ '\n' :: gap, Text.isBlank c = true :=
    List.forall_mem_cons.mpr ⟨by decide, blank⟩
  exact (divides_punctuation listed).spaced wider

theorem leads_block (lines : List String) (more : List Char) :
    Leads [.openBrace] ((renderBlock indent lines).toList ++ more) demand := by
  have opening : Divides .openBrace ['\x7b'] := divides_punctuation (by decide)
  obtain ⟨rest, text⟩ : ∃ rest, (renderBlock indent lines).toList ++ more = ['\x7b'] ++ rest :=
    ⟨_, by simp [renderBlock]; rfl⟩
  exact text ▸ opening.leads (List.mem_singleton.mpr rfl) rest

/-- A block is taken from its text, whatever follows its closing brace. -/
theorem takes_block (each : ∀ statement ∈ body, statement.Taken) (distinct : Distinct body)
    (blank : ∀ c ∈ indent.toList, Text.isBlank c = true) (few : bound ≤ depth) :
    Takes bound (parseBlock (parseBodyWithin depth)) demand
      (renderBlock indent (renderAll (indent ++ "    ") body)).toList
      (Renumbered (body.map reassociate)) := by
  have wide := blank_deeper blank
  have opening {gap : List Char} (spaces : ∀ c ∈ gap, Text.isBlank c = true) :
      Divides .openBrace (['\x7b', '\n'] ++ gap) := divides_lineEnd (by decide) spaces
  have separating : Divides .semicolon ([';', '\n'] ++ (indent ++ "    ").toList) :=
    divides_lineEnd (by decide) wide
  have closing : Divides .closeBrace ('\n' :: indent.toList ++ ['\x7d']) :=
    (divides_punctuation (by decide)).offset (List.forall_mem_cons.mpr ⟨by decide, blank⟩)
  have listed : Kind.closeBrace ∈ [Kind.dot, .closeBrace] := by decide
  rw [toList_renderBlock, parseBlock]
  split
  next none =>
    subst none
    refine takes_expect ((opening (List.forall_mem_nil _)).opens _) (by decide) fun _ less _ _ => ?_
    rw [← List.append_nil ('\n' :: indent.toList ++ ['\x7d'])]
    exact takes_accept (closing.opens []) (by decide) fun _ _ => takes_pure ⟨id, rfl⟩
  next some =>
    refine takes_expect ((opening wide).opens _) (by decide) fun _ less _ fewer => ?_
    obtain ⟨depth, rfl⟩ := Nat.exists_eq_add_one_of_ne_zero (show depth ≠ 0 by omega)
    refine takes_accept_refused ((refuses_parseBodyWithin depth).bind _) ?_
    rw [← List.append_nil ('\n' :: indent.toList ++ ['\x7d'])]
    refine (takes_bodyWithin each distinct wide separating listed some (by omega)).bind
      (closing.leads (List.mem_singleton.mpr rfl) []) fun found renumbered => ?_
    exact takes_expect (closing.opens []) (by decide) fun _ _ _ _ => takes_pure renumbered

section Conditions

variable {condition : Formula} {positive negative : List Statement}

/-- A condition is taken from its text with parentheses around it, whatever follows them. -/
theorem takes_condition (legible : condition.Legible)
    (survive : ∀ term ∈ condition.terms, term.Survives) (distinct : Distinct condition) :
    Takes bound parseCondition demand (['('] ++ (condition.render.toList ++ [')', ' ']))
      (Renumbered condition.reassociate) := by
  have opening : Divides .openParen ['('] := divides_punctuation (by decide)
  have closing : Divides .closeParen [')', ' '] :=
    (divides_punctuation (by decide)).spaced (List.forall_mem_singleton.mpr (by decide))
  have fewer : [Kind.closeParen] ⊆ [.closeParen, .dot, .planArrow] := by decide
  rw [parseCondition]
  refine takes_expect (opening.opens _) (by decide) fun _ less _ _ => ?_
  rw [← List.append_nil [')', ' ']]
  refine (Formula.takes_parse legible survive distinct fewer).bind
    (closing.leads (List.mem_singleton.mpr rfl) []) fun found renumbered => ?_
  exact takes_expect (closing.opens []) (by decide) fun _ _ _ _ => takes_pure renumbered

theorem distinct_reassociate {statement : Statement} (distinct : Distinct statement) :
    Distinct statement.reassociate := by
  show (numbers statement.reassociate.vars).Nodup
  rw [vars_reassociate]
  exact distinct

theorem distinct_branch_iff :
    Distinct (branch condition positive negative) ↔ Distinct ((condition, positive), negative) := by
  show (numbers (condition.vars ++ varsAll positive ++ varsAll negative)).Nodup ↔ _
  rw [varsAll_eq_flatMap, varsAll_eq_flatMap]
  rfl

theorem distinct_loop_iff : Distinct (loop condition body) ↔ Distinct (condition, body) := by
  show (numbers (condition.vars ++ varsAll body)).Nodup ↔ _
  rw [varsAll_eq_flatMap]
  rfl

theorem renumbered_loop {condition' : Formula} {body' : List Statement}
    (own : Renumbered condition condition') (others : Renumbered body body')
    (distinct : Distinct (condition, body)) : Renumbered (loop condition body) (loop condition' body') := by
  obtain ⟨f, same⟩ := own.pair others distinct
  obtain ⟨rfl, rfl⟩ := Prod.mk.inj same
  exact ⟨f, congrArg (loop _) (renameAll_eq_map _ body).symm⟩

theorem renumbered_branch {condition' : Formula} {positive' negative' : List Statement}
    (own : Renumbered condition condition') (first : Renumbered positive positive')
    (second : Renumbered negative negative') (distinct : Distinct ((condition, positive), negative)) :
    Renumbered (branch condition positive negative) (branch condition' positive' negative') := by
  obtain ⟨f, same⟩ := (own.pair first (distinct_pair_iff.mp distinct).1).pair second distinct
  obtain ⟨front, rfl⟩ := Prod.mk.inj same
  obtain ⟨rfl, rfl⟩ := Prod.mk.inj front
  exact ⟨f, congrArg₂ (branch _) (renameAll_eq_map _ positive).symm (renameAll_eq_map _ negative).symm⟩

section Taken

variable (legible : condition.Legible) (survive : ∀ term ∈ condition.terms, term.Survives)
  (first : ∀ statement ∈ positive, statement.Taken)

include legible survive first

theorem taken_loop (distinct : Distinct (loop condition positive)) : (loop condition positive).Taken := by
  intro indent depth blank
  obtain ⟨inCondition, inBody, -⟩ := distinct_pair_iff.mp (distinct_loop_iff.mp distinct)
  have opens (text : List Char) : Opens .whileWord ("while".toList ++ [' ']) text :=
    @Term.opens_word "while" (by decide) text
  have text : (render indent (loop condition positive)).toList = ("while".toList ++ [' ']) ++
      ((['('] ++ (condition.render.toList ++ [')', ' '])) ++
        ((renderBlock indent (renderAll (indent ++ "    ") positive)).toList ++ [])) := by
    simp [render]
  rw [text, parseWith]
  refine takes_peek (by decide) (opens _).starts fun token kind => ?_
  simp only [List.mem_singleton.mp kind]
  refine takes_advance (opens _) (by decide) fun _ less _ fewer => ?_
  refine Takes.map (show Takes less _ _ _ (Renumbered (loop condition positive).reassociate) from ?_)
    fun other renumbered => ⟨other, rfl, renumbered⟩
  have whole := distinct_reassociate distinct
  rw [reassociate, reassociateAll_eq_map] at whole ⊢
  rw [parseLoop]
  refine (takes_condition legible survive inCondition).bind (leads_block _ []) fun condition' own => ?_
  rw [List.append_nil]
  refine (takes_block first inBody blank fewer.le).map fun body' others => ?_
  exact renumbered_loop own others (distinct_loop_iff.mp whole)

theorem taken_branch (second : ∀ statement ∈ negative, statement.Taken)
    (distinct : Distinct (branch condition positive negative)) :
    (branch condition positive negative).Taken := by
  intro indent depth blank
  obtain ⟨inFront, inNegative, -⟩ := distinct_pair_iff.mp (distinct_branch_iff.mp distinct)
  obtain ⟨inCondition, inPositive, -⟩ := distinct_pair_iff.mp inFront
  have opens (text : List Char) : Opens .ifWord ("if".toList ++ [' ']) text :=
    @Term.opens_word "if" (by decide) text
  have elses : Divides .elseWord (' ' :: ("else".toList ++ [' '])) :=
    @Term.divides_word "else" (by decide)
  have text : (render indent (branch condition positive negative)).toList = ("if".toList ++ [' ']) ++
      ((['('] ++ (condition.render.toList ++ [')', ' '])) ++
        ((renderBlock indent (renderAll (indent ++ "    ") positive)).toList ++
          if negative = [] then [] else (' ' :: ("else".toList ++ [' '])) ++
            ((renderBlock indent (renderAll (indent ++ "    ") negative)).toList ++ []))) := by
    cases negative <;> simp [render]
  rw [text, parseWith]
  refine takes_peek (by decide) (opens _).starts fun token kind => ?_
  simp only [List.mem_singleton.mp kind]
  refine takes_budget fun less few => ?_
  refine Takes.map (show Takes less _ _ _ (Renumbered (branch condition positive negative).reassociate)
    from ?_) fun other renumbered => ⟨other, rfl, renumbered⟩
  have whole := distinct_reassociate distinct
  rw [reassociate, reassociateAll_eq_map, reassociateAll_eq_map] at whole ⊢
  have whole := distinct_branch_iff.mp whole
  rw [parseBranch]
  simp only [pure_bind]
  refine takes_expect (opens _) (by decide) fun _ less' _ fewer => ?_
  refine (takes_condition legible survive inCondition).bind (leads_block _ _) fun condition' own => ?_
  split
  next none =>
    subst none
    refine (takes_block first inPositive blank (by omega)).bind
      (Source.leads_nil (List.Subset.refl _)) fun positive' others => ?_
    refine takes_unaccepted followers_sure (Source.starts_nil (List.Subset.refl _)) (by decide) ?_
    have none : Renumbered ([] : List Statement) [] := ⟨id, rfl⟩
    exact takes_pure (renumbered_branch own others none whole)
  next some =>
    refine (takes_block first inPositive blank (by omega)).bind
      (elses.leads (List.mem_singleton.mpr rfl) _) fun positive' others => ?_
    refine takes_accept (elses.opens _) (by decide) fun less'' fewer' => ?_
    refine takes_unchecked (by decide) (leads_block _ _).starts (by decide) ?_
    rw [if_neg Bool.false_ne_true, List.append_nil]
    refine (takes_block second inNegative blank (by omega)).map fun negative' others' => ?_
    exact renumbered_branch own others others' whole

end Taken

end Conditions

/-- Every statement of the grammar is taken from its text, if its terms are and the text shows what it
is. -/
theorem Legible.taken {statement : Statement} (legible : statement.Legible) (survives : statement.Survives)
    (distinct : Distinct statement) : statement.Taken := by
  induction legible with
  | marked mark literal callable =>
    have own : literal.Survives := by cases mark <;> exact survives
    exact fun indent depth _ => takes_marked mark callable own
  | builtin name arguments word kind each =>
    exact fun indent depth _ =>
      takes_builtin word kind each survives (distinct_action_iff.mp distinct)
  | user literal speakable plain =>
    exact fun indent depth _ => takes_user speakable plain survives distinct
  | constraint relation left right known first second =>
    obtain ⟨unsigned, firstOwn, secondOwn⟩ := survives
    obtain ⟨kind, known⟩ := known
    exact fun indent depth _ => takes_constraint known (first.kept firstOwn) (second.kept secondOwn)
      (first.begins_unsigned unsigned) distinct
  | branch condition positive negative legible _ _ ih ih' =>
    obtain ⟨own, firsts, seconds⟩ := survives
    obtain ⟨inFront, inNegative, -⟩ := distinct_pair_iff.mp (distinct_branch_iff.mp distinct)
    have inPositive := (distinct_pair_iff.mp inFront).2.1
    refine taken_branch legible own (fun statement member => ?_) (fun statement member => ?_) distinct
    · exact ih statement member (allSurvive_iff.mp firsts statement member)
        (inPositive.of_mem member)
    · exact ih' statement member (allSurvive_iff.mp seconds statement member)
        (inNegative.of_mem member)
  | loop condition body legible _ ih =>
    obtain ⟨own, each⟩ := survives
    have inBody := (distinct_pair_iff.mp (distinct_loop_iff.mp distinct)).2.1
    refine taken_loop legible own (fun statement member => ?_) distinct
    exact ih statement member (allSurvive_iff.mp each statement member) (inBody.of_mem member)

end Statement

end AgentSpeak
