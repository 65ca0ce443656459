import AgentSpeak.Proofs.Formula.Rereading
import AgentSpeak.Proofs.Program.Legible
import AgentSpeak.Proofs.Program.Renaming

/-!
Plan bodies read back from their own text. Each statement comes back with its conditions regrouped to
the left, if its terms are read back from their own texts and its text shows what kind of statement it
is.
-/

namespace AgentSpeak

open Source (Token Kind Parser Cursor Position Lexeme Tidy Front Leads Starts Opens Divides scan edge
  formed_of_kind)
open Source.Parser
open Renames (Distinct Renumbered distinct_pair_iff)

/-- A formula is taken from its text, regrouped to the left. -/
theorem Formula.takes_parse {formula : Formula} {bound : Nat} {kinds : List Kind}
    (legible : formula.Legible) (survive : ∀ term ∈ formula.terms, term.Survives)
    (distinct : Distinct formula) (fewer : kinds ⊆ [.closeParen, .dot, .planArrow]) :
    Takes bound parse (Front kinds) formula.render.toList (Renumbered formula.reassociate) := by
  have stops : ∀ kind ∈ [Kind.closeParen, .dot, .planArrow], kind.endsTerm = true ∧
      kind ∉ [Kind.blockComment, .string, .unknown] ∧ relation? kind = none ∧
      conjunction? kind = none ∧ disjunction? kind = none := by
    simp [Kind.endsTerm, relation?, conjunction?, disjunction?]
  intro position more finish w ended front few
  obtain ⟨ends, sure, unrelated, noConjunction, noDisjunction⟩ := stops _ (fewer front.listed)
  obtain ⟨other, count, -, ⟨f, same, -⟩, ran⟩ :=
    ((reread_of_legible legible survive distinct).disjunct _).reads position more finish w ended
      ⟨⟨front.detached, ends, formed_of_kind rfl sure⟩, unrelated⟩
      ⟨⟨trivial, noConjunction⟩, noDisjunction⟩ (Nat.le_refl _)
  refine ⟨other, count, ⟨f, same⟩, ?_⟩
  rw [parse, run_then (run_budget _)]
  exact ran

namespace Statement

mutual

/-- A statement with the conditions of its branches and loops regrouped to the left. -/
def reassociate : Statement → Statement
  | .branch condition positive negative =>
      .branch condition.reassociate (reassociateAll positive) (reassociateAll negative)
  | .loop condition body => .loop condition.reassociate (reassociateAll body)
  | statement => statement

def reassociateAll : List Statement → List Statement
  | [] => []
  | statement :: rest => reassociate statement :: reassociateAll rest

end

theorem reassociateAll_eq_map (body : List Statement) : reassociateAll body = body.map reassociate := by
  induction body with
  | nil => rfl
  | cons statement rest ih => rw [reassociateAll, ih, List.map_cons]

mutual

theorem vars_reassociate : (statement : Statement) → statement.reassociate.vars = statement.vars
  | .achieve _ | .achieveLater _ | .test _ | .add _ | .remove _ | .replace _ | .action ..
  | .constraint .. => rfl
  | .branch condition positive negative => by
    rw [reassociate, vars, vars, Formula.vars_reassociate, varsAll_reassociateAll positive,
      varsAll_reassociateAll negative]
  | .loop condition body => by
    rw [reassociate, vars, vars, Formula.vars_reassociate, varsAll_reassociateAll body]

theorem varsAll_reassociateAll : (body : List Statement) →
    varsAll (reassociateAll body) = varsAll body
  | [] => rfl
  | statement :: rest => by
    rw [reassociateAll, varsAll, varsAll, vars_reassociate statement, varsAll_reassociateAll rest]

end

mutual

/-- The terms of a statement are read back from their own texts, and its text begins like a statement of
its kind: an action of the user is not named like the word for truth or the pairs of lists, and no minus
sign stands before a relation. -/
def Survives : Statement → Prop
  | .achieve literal | .achieveLater literal | .test literal => literal.Survives
  | .add literal | .remove literal | .replace literal => literal.Survives
  | .action .builtin _ arguments => ∀ argument ∈ arguments, argument.Survives
  | .action .user name arguments =>
      name ≠ "true" ∧ name ≠ "." ∧ ∀ argument ∈ arguments, argument.Survives
  | .constraint _ left right =>
      (Source.Parser.start left.render).token.kind ≠ .minus ∧ left.Survives ∧ right.Survives
  | .branch condition positive negative =>
      (∀ term ∈ condition.terms, term.Survives) ∧ AllSurvive positive ∧ AllSurvive negative
  | .loop condition body => (∀ term ∈ condition.terms, term.Survives) ∧ AllSurvive body

def AllSurvive : List Statement → Prop
  | [] => True
  | statement :: rest => Survives statement ∧ AllSurvive rest

end

theorem allSurvive_iff {body : List Statement} :
    AllSurvive body ↔ ∀ statement ∈ body, statement.Survives := by
  induction body with
  | nil => simp [AllSurvive]
  | cons statement rest ih => rw [AllSurvive, ih, List.forall_mem_cons]

theorem distinct_action_iff {kind : ActionKind} {name : String} {arguments : List Term} :
    Distinct (action kind name arguments) ↔ Distinct arguments := by
  show (numbers (Term.varsAll arguments)).Nodup ↔ _
  rw [Term.varsAll_eq_flatMap]
  rfl

/-- What comes back for the text of a statement. -/
def Regains (statement : Statement) (found : Option Statement) : Prop :=
  ∃ other, found = some other ∧ Renumbered statement.reassociate other

/-- The kinds of tokens behind a statement. -/
def followers : List Kind :=
  [.semicolon, .dot, .closeBrace]

theorem followers_sure : ∀ kind ∈ followers, kind ∉ [Kind.blockComment, .string, .unknown] := by decide

variable {bound : Nat} {body : Parser (List Statement)} {indent : String}

/-- A sign and a literal. -/
theorem takes_marked (mark : Mark) {literal : Term} (callable : literal.Callable)
    (survives : literal.Survives) :
    Takes bound (parseWith body) (Front followers) (render indent (mark.make literal)).toList
      (Regains (mark.make literal)) := by
  have listed : (mark.sign, mark.kind) ∈ Source.signs := by cases mark <;> decide
  have opens := Source.opens_sign listed callable.first
  have sure : mark.kind ∉ [Kind.blockComment, .string, .unknown] := by cases mark <;> decide
  have inner : Takes bound (do let _ ← advance; return some (mark.make (← Term.parseLiteral)))
      (Front followers) (mark.sign ++ literal.render.toList) (Regains (mark.make literal)) := by
    refine takes_advance opens sure fun _ less _ _ => ?_
    have kept := callable.speakable.kept survives
    refine (callable.takes followers_sure kept (by decide)).map ?_
    rintro _ ⟨f, rfl⟩
    exact ⟨_, rfl, f, by cases mark <;> rfl⟩
  rw [mark.render_make, parseWith]
  refine takes_peek (List.forall_mem_singleton.mpr sure) opens.starts fun token same => ?_
  have same := List.mem_singleton.mp same
  cases mark <;> simp only [Mark.kind] at same <;> simp only [same] <;> exact inner

/-- The text of an action is that of its literal, behind a full stop if it is built in. -/
theorem render_action {name : String} (word : IsWord name)
    (kind : Lexeme.nameKind name.toList = .functor) (arguments : List Term) :
    (render indent (.action .user name arguments)).toList =
        (Term.literal name arguments).render.toList ∧
      (render indent (.action .builtin name arguments)).toList =
        '.' :: (Term.literal name arguments).render.toList := by
  cases arguments with
  | nil => simp [render, Term.literal, Term.render]
  | cons argument arguments =>
    have call := Term.render_call word kind (argument :: arguments)
    simp [render, Term.literal, call, String.toList_intercalate]

theorem run_parseBuiltin {dot first : Token} {rest : List Token} {finish : Token} {w : Nat}
    {literal : Term} {after : Cursor} (full : dot.kind = .dot) (name : first.kind = .functor)
    (near : first.position.offset = dot.stop)
    (ran : Term.parseLiteral ⟨first :: rest, finish, w⟩ = (.ok literal, after)) :
    parseBuiltin ⟨dot :: first :: rest, finish, w⟩ = (.ok (ofLiteral .builtin literal), after) := by
  have dotted : (Cursor.mk (dot :: first :: rest) finish w).token.problem? = none :=
    formed_of_kind full (by decide)
  have named : (Cursor.mk (first :: rest) finish w).token.problem? = none :=
    formed_of_kind name (by decide)
  rw [parseBuiltin, run_then (run_expect dotted full _)]
  show (peek >>= _) (Cursor.mk (first :: rest) finish w) = _
  rw [run_then (run_peek_formed named)]
  have right : ¬(first.kind ≠ .functor ∨ first.position.offset ≠ dot.stop) := by simp [name, near]
  show (if first.kind ≠ .functor ∨ first.position.offset ≠ dot.stop then _ else _ : Parser _) _ = _
  rw [if_neg right, run_then ran]
  rfl

/-- The name of a built-in action stands right behind its full stop. -/
theorem takes_builtin {name : String} {arguments : List Term} (word : IsWord name)
    (kind : Lexeme.nameKind name.toList = .functor) (each : ∀ argument ∈ arguments, argument.Speakable)
    (survive : ∀ argument ∈ arguments, argument.Survives) (distinct : Distinct arguments) :
    Takes bound (parseWith body) (Front followers)
      (render indent (.action .builtin name arguments)).toList
      (Regains (.action .builtin name arguments)) := by
  have callable : (Term.literal name arguments).Callable := .call name arguments word kind each
  have kept := Term.kept_call word kind (fun argument member =>
    (each argument member).kept (survive argument member)) distinct
  rw [(render_action word kind arguments).2]
  intro position more finish w ended front few
  obtain ⟨_, count, ⟨f, rfl⟩, ran⟩ := callable.takes followers_sure kept (by decide)
    (position.next '.') more finish w ended front (Nat.le_refl _)
  have same : ofLiteral .builtin ((Term.literal name arguments).rename (.renumber f)) =
      (action .builtin name arguments).rename (.renumber f) := by
    rw [ofLiteral_rename, ofLiteral, Term.literalParts_literal]
  refine ⟨_, count, ⟨_, rfl, f, same⟩, ?_⟩
  obtain ⟨rest, text, apart⟩ := Term.exists_render_literal word kind arguments
  have named := Term.scan_word word (apart more front.detached) (position.next '.')
  rw [← List.append_assoc, ← text, kind] at named
  rw [List.cons_append, Source.scan_dot, parseWith, run_then (run_peek_formed rfl)]
  rw [named] at ran ⊢
  exact run_then (run_parseBuiltin rfl rfl rfl ran) _

section Calls

variable {cursor after : Cursor} {left : Term} (ended : cursor.finish.kind = .endOfInput)
  (ran : Term.parse cursor = (.ok left, after)) (formed : after.token.problem? = none)

include ended ran formed

/-- Behind the word for truth there is either what stands behind the whole term, or an operator. -/
theorem following_truth (truth : cursor.token.kind = .trueWord) :
    cursor.following.problem? = none ∧
      (cursor.following = after.token ∨ cursor.following.kind ∈ Term.expressionCarriers) := by
  obtain ⟨tokens, passes, -, derivation⟩ := Term.derives_parse cursor ended left after ran
  obtain ⟨first, rest, rfl, -⟩ := derivation.begins
  rw [Cursor.token, passes.split] at truth
  cases rest with
  | nil =>
    have same : cursor.following = after.token := by
      rw [Cursor.following, passes.split, Cursor.token, passes.finish]
      rfl
    exact ⟨same ▸ formed, .inl same⟩
  | cons second rest =>
    rw [Cursor.following, passes.split]
    exact ⟨passes.formed second (by simp), .inr (derivation.carried truth passes.formed)⟩

/-- A statement that begins with a term and no minus sign is a relation or a call. -/
theorem run_parseWith_call (listed : cursor.token.kind ∈ Term.primaryFirsts)
    (goes : cursor.token.kind = .trueWord → endsStatement after.token.kind = false) :
    parseWith body cursor = (do return some (← parseCall) : Parser (Option Statement)) cursor := by
  rw [parseWith, run_then (run_peek_formed (Term.parse_begins ran).1)]
  by_cases truth : cursor.token.kind = .trueWord
  · obtain ⟨known, behind⟩ := following_truth ended ran formed truth
    have carried : ∀ kind ∈ Term.expressionCarriers, endsStatement kind = false := by decide
    have inner : endsStatement cursor.following.kind = false := by
      rcases behind with same | operator
      · exact same ▸ goes truth
      · exact carried _ operator
    have second : peekSecond cursor = (.ok cursor.following, cursor) := by
      rw [run_peekSecond, known]
    simp only [truth]
    rw [run_then second, if_neg (by simp [inner])]
  · simp only [Term.primaryFirsts, List.mem_cons, List.not_mem_nil, or_false] at listed
    rcases listed with kind | kind | kind | kind | kind | kind | kind | kind | kind
    case inr.inr.inr.inr.inl => exact absurd kind truth
    all_goals simp only [kind]

end Calls

/-- A relation or a call is read behind its first term. -/
theorem takes_call {demand : Source.Demand} {kinds firsts : List Kind} {text rest : List Char}
    {own : Term → Prop} {statement : Statement}
    (left : Takes bound Term.parse (Front kinds) text own) (leads : Leads kinds rest demand)
    (sure : ∀ kind ∈ kinds, kind ∉ [Kind.blockComment, .string, .unknown])
    (starts : Starts firsts (text ++ rest) demand) (listed : firsts ⊆ Term.primaryFirsts)
    (goes : .trueWord ∈ firsts → ∀ kind ∈ kinds, endsStatement kind = false)
    (second : ∀ first value, own value →
      Takes bound (parseBehind first value) demand rest (Renumbered statement.reassociate)) :
    Takes bound (parseWith body) demand (text ++ rest) (Regains statement) := by
  intro position more finish w ended asked few
  have front := leads (position.after text) more finish (Position.after_append .. ▸ asked)
  have begins := starts position more finish asked
  rw [List.append_assoc] at few begins ⊢
  obtain ⟨value, count, -, ran⟩ := left position (rest ++ more) finish w ended front few
  obtain ⟨other, count', done, called⟩ := left.bind leads
    (second (edge (scan position (text ++ (rest ++ more))) finish)) position more finish w ended asked
    (by rwa [List.append_assoc])
  refine ⟨some other, count', ⟨other, rfl, done⟩, ?_⟩
  rw [List.append_assoc] at called
  have formed := formed_of_kind rfl (sure _ front.listed)
  rw [run_parseWith_call ended ran formed (listed begins) fun truth =>
    goes (truth ▸ begins) _ front.listed]
  refine run_then ?_ _
  rw [parseCall, run_then (run_peek_formed (Term.parse_begins ran).1)]
  exact called

section Relations

variable {relation : Relation} {kind : Kind} {left right : Term}
  (known : Formula.relation? kind = some relation)

include known

theorem divides_relation : Divides kind (Formula.related relation []) where
  detached more := Source.detached_space _
  scanned position more := by
    have whole : Formula.related relation [] ++ more = Formula.related relation more := by
      simp [Formula.related]
    exact ⟨_, rfl, whole ▸ Formula.scan_related known position more⟩

/-- A relation between terms. -/
theorem takes_constraint (first : left.Kept) (second : right.Kept)
    (starts : ∀ position, Term.Begins Term.primaryFirsts (scan position left.render.toList))
    (distinct : Distinct (left, right)) :
    Takes bound (parseWith body) (Front followers)
      (render indent (.constraint relation left right)).toList
      (Regains (.constraint relation left right)) := by
  have apart : kind ∉ [Kind.blockComment, .string, .unknown] ∧ kind ∉ Term.expressionCarriers ∧
      endsStatement kind = false := by
    cases kind <;> first | decide | cases known
  obtain ⟨sure, stops, goes⟩ := apart
  have divides := divides_relation known
  have text : (render indent (.constraint relation left right)).toList =
      left.render.toList ++ (Formula.related relation [] ++ right.render.toList) := by
    simp [render, Formula.render, Formula.related]
  have leads : Leads [kind] (Formula.related relation [] ++ right.render.toList) (Front followers) :=
    divides.leads (List.mem_singleton.mpr rfl) _
  rw [text]
  refine takes_call (first.takes (List.forall_mem_singleton.mpr sure)
    (List.forall_mem_singleton.mpr stops)) leads (List.forall_mem_singleton.mpr sure)
    (first.tidy.starts starts leads) (List.Subset.refl _) (fun _ => List.forall_mem_singleton.mpr goes)
    fun _ value own => ?_
  rw [parseBehind]
  refine takes_peek (List.forall_mem_singleton.mpr sure) (divides.opens _).starts fun token same => ?_
  simp only [List.mem_singleton.mp same, known]
  refine takes_advance (divides.opens _) sure fun _ less _ _ => ?_
  refine (second.takes followers_sure (by decide)).map fun value' own' => ?_
  obtain ⟨f, joint⟩ := own.pair own' distinct
  obtain ⟨rfl, rfl⟩ := Prod.mk.inj joint
  exact ⟨f, rfl⟩

end Relations

/-- What an action of the user is read from: its literal keeps what it is and begins like a call. -/
theorem spoken_user (indent : String) {literal : Term} (speakable : literal.Speakable)
    (plain : literal.isPlainLiteral = true) (survives : (ofLiteral .user literal).Survives)
    (distinct : Distinct (ofLiteral .user literal)) :
    literal.Kept ∧ (render indent (ofLiteral .user literal)).toList = literal.render.toList ∧
      ∀ position, Term.Begins [.falseWord, .functor, .openBracket]
        (scan position literal.render.toList) := by
  obtain ⟨noTruth, noPair, each⟩ := survives
  have call {name : String} {arguments : List Term} (word : IsWord name)
      (kind : Lexeme.nameKind name.toList = .functor)
      (speakable : ∀ argument ∈ arguments, argument.Speakable)
      (survive : ∀ argument ∈ arguments, argument.Survives) (distinct : Distinct arguments) :
      (Term.literal name arguments).Kept ∧ (render indent (.action .user name arguments)).toList =
        (Term.literal name arguments).render.toList ∧
      ∀ position, Term.Begins [.falseWord, .functor, .openBracket]
        (scan position (Term.literal name arguments).render.toList) := by
    have kept := Term.kept_call word kind
      (fun argument member => (speakable argument member).kept (survive argument member)) distinct
    refine ⟨kept, (render_action word kind arguments).1, fun position => ?_⟩
    obtain ⟨rest, text, apart⟩ := Term.exists_render_literal word kind arguments
    rw [text, ← List.append_nil rest, Term.scan_word word (apart [] Source.detached_nil)]
    exact Term.begins_cons kind (by decide) _
  cases speakable with
  | truth => exact absurd rfl noTruth
  | pair head tail => exact absurd rfl noPair
  | falsity =>
    refine ⟨fun low => ⟨low, _, _, Term.shows_falsity low, id, (Term.rename_atom _ _).symm⟩, rfl,
      fun position => ?_⟩
    have word : IsWord "false" := by decide
    have scanned := Term.scan_word word Source.detached_nil position
    rw [List.append_nil] at scanned
    exact scanned ▸ Term.begins_cons (show _ = Kind.falseWord from rfl) (by decide) _
  | nil =>
    refine ⟨fun low => ⟨low, _, _, Term.shows_nil low, id, (Term.rename_atom _ _).symm⟩, rfl,
      fun position => ?_⟩
    have scanned := Source.scan_punctuation (show ('[', Kind.openBracket) ∈ _ by decide) position [']']
    exact scanned ▸ Term.begins_cons (show _ = Kind.openBracket from rfl) (by decide) _
  | name name word kind => exact @call name [] word kind nofun nofun List.nodup_nil
  | call name arguments word kind some speakable =>
    obtain ⟨argument, arguments, rfl⟩ := List.exists_cons_of_ne_nil some
    exact call word kind speakable each (distinct_action_iff.mp distinct)
  | number value => cases plain
  | string value => cases plain
  | wildcard marks => cases plain
  | variableName name marks => cases plain
  | binary operator left right => simp [Term.isPlainLiteral, Term.isExpression] at plain
  | minus operand => simp [Term.isPlainLiteral, Term.isExpression] at plain

/-- An action of the user. -/
theorem takes_user {literal : Term} (speakable : literal.Speakable)
    (plain : literal.isPlainLiteral = true) (survives : (ofLiteral .user literal).Survives)
    (distinct : Distinct (ofLiteral .user literal)) :
    Takes bound (parseWith body) (Front followers) (render indent (ofLiteral .user literal)).toList
      (Regains (ofLiteral .user literal)) := by
  obtain ⟨kept, text, begins⟩ := spoken_user indent speakable plain survives distinct
  have unrelated : ∀ kind ∈ followers, Formula.relation? kind = none := by
    simp [followers, Formula.relation?]
  have leads := Source.leads_nil (List.Subset.refl followers)
  rw [text, ← List.append_nil literal.render.toList]
  refine takes_call (kept.takes followers_sure (by decide)) leads followers_sure
    (kept.tidy.starts begins leads) (by decide) (by decide) fun first value own => ?_
  rw [parseBehind]
  refine takes_peek followers_sure (Source.starts_nil (List.Subset.refl _)) fun token listed => ?_
  obtain ⟨f, rfl⟩ := own
  have plain' : (Renames.rename (.renumber f) literal).isPlainLiteral = true :=
    (Term.isPlainLiteral_rename _ literal).trans plain
  simp only [unrelated _ listed]
  rw [if_pos plain']
  exact takes_pure ⟨f, ofLiteral_rename .user _ literal⟩

end Statement

end AgentSpeak
