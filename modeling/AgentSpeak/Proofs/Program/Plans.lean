import AgentSpeak.Proofs.Program.Bodies
import AgentSpeak.Proofs.Term.Equality

namespace AgentSpeak

open Source (Token Kind Parser Cursor Front Leads Starts Opens Divides divides_of_next
  divides_punctuation divides_stop)
open Source.Parser
open Renames (Distinct Renumbered distinct_pair_iff)

/-- A formula that is printed as no context is the word for truth. -/
theorem Formula.eq_truth {formula : Formula} (isTruth : formula.isTruth = true) : formula = truth := by
  cases formula with
  | literal term =>
    have same : (term == Term.truth) = true := isTruth
    rw [Term.beq_iff_canonical] at same
    cases term with
    | atom name => exact congrArg literal same
    | number value => cases value <;> simp [Term.truth, Term.canonical] at same
    | _ => simp [Term.truth, Term.canonical] at same
  | _ => cases isTruth

namespace Trigger

variable {bound : Nat} {demand : Source.Demand} {text : List Char} {given : Trigger → Prop}

theorem takes_change (change : Change) {next : Change → Parser Trigger} (nonempty : text ≠ [])
    (other : text.head? ≠ some '+')
    (rest : ∀ less, less ≤ bound → Takes less (next change) demand text given) :
    Takes bound (parseChange >>= next) demand (change.sign.toList ++ text) given := by
  rw [parseChange, bind_assoc]
  cases change with
  | addition =>
    refine takes_accept (Source.opens_plus text) (by decide) fun less fewer => ?_
    rw [if_pos rfl, pure_bind]
    exact rest less fewer.le
  | deletion =>
    have opens := Source.opens_minus nonempty other
    refine takes_unaccepted (by decide) opens.starts (by decide) ?_
    rw [if_neg Bool.false_ne_true, bind_assoc]
    refine takes_accept opens (by decide) fun less fewer => ?_
    rw [if_pos rfl, pure_bind]
    exact rest less fewer.le

/-- The kinds of tokens that a literal begins with. -/
def literalFirsts : List Kind :=
  [.trueWord, .falseWord, .functor]

theorem takes_subject (subject : Subject) {next : Subject → Parser Trigger}
    (name : ∃ c rest, text = c :: rest ∧ Source.Lexeme.isNameStart c = true)
    (starts : Starts literalFirsts text demand)
    (rest : ∀ less, less ≤ bound → Takes less (next subject) demand text given) :
    Takes bound (parseSubject >>= next) demand (subject.symbol.toList ++ text) given := by
  have sure : ∀ kind ∈ literalFirsts, kind ∉ [Kind.blockComment, .string, .unknown] := by decide
  rw [parseSubject, bind_assoc]
  cases subject with
  | achievement =>
    refine takes_accept (Source.opens_sign (by decide) name) (by decide) fun less fewer => ?_
    rw [if_pos rfl, pure_bind]
    exact rest less fewer.le
  | test =>
    have opens : Opens .question ['?'] text := Source.opens_sign (by decide) name
    refine takes_unaccepted (by decide) opens.starts (by decide) ?_
    rw [if_neg Bool.false_ne_true, bind_assoc]
    refine takes_accept opens (by decide) fun less fewer => ?_
    rw [if_pos rfl, pure_bind]
    exact rest less fewer.le
  | belief =>
    refine takes_unaccepted sure starts (by decide) ?_
    rw [if_neg Bool.false_ne_true, bind_assoc]
    refine takes_unaccepted sure starts (by decide) ?_
    rw [if_neg Bool.false_ne_true, pure_bind]
    exact rest bound (Nat.le_refl _)

variable {trigger : Trigger} {kinds : List Kind}

/-- Behind the sign of its change, the text of a trigger goes on with a mark or a name. -/
theorem render_tail (callable : trigger.literal.Callable) :
    ∃ c rest, trigger.subject.symbol.toList ++ trigger.literal.render.toList = c :: rest ∧ c ≠ '+' := by
  obtain ⟨c, rest, text, start⟩ := callable.first
  rw [text]
  cases trigger.subject with
  | achievement => exact ⟨'!', c :: rest, rfl, by decide⟩
  | test => exact ⟨'?', c :: rest, rfl, by decide⟩
  | belief =>
    refine ⟨c, rest, rfl, ?_⟩
    rintro rfl
    exact absurd start (by decide)

/-- A trigger is taken from its text. -/
theorem takes_parse (callable : trigger.literal.Callable) (kept : trigger.literal.Kept)
    (sure : ∀ kind ∈ kinds, kind ∉ [Kind.blockComment, .string, .unknown])
    (stops : .openParen ∉ kinds) :
    Takes bound parse (Front kinds) trigger.render.toList fun found =>
      ∃ literal, found = { trigger with literal } ∧ Renumbered trigger.literal literal := by
  obtain ⟨c, rest, tail, other⟩ := render_tail callable
  have text : trigger.render.toList = trigger.change.sign.toList ++
      (trigger.subject.symbol.toList ++ trigger.literal.render.toList) := by
    simp [render, List.append_assoc]
  have begins := kept.tidy.starts callable.begins (Source.leads_nil (List.Subset.refl kinds))
  rw [List.append_nil] at begins
  rw [text, parse]
  refine takes_change _ (by simp [tail]) (by simpa [tail] using other) fun less fewer => ?_
  refine takes_subject _ callable.first begins fun less' fewer' => ?_
  exact (callable.takes sure kept stops).map fun literal own => ⟨literal, rfl, own⟩

/-- The text of a trigger begins with a sign. -/
theorem starts_render (callable : trigger.literal.Callable) (more : List Char) :
    Starts [.plus, .minus] (trigger.render.toList ++ more) demand := by
  obtain ⟨c, rest, tail, other⟩ := render_tail callable
  have text : trigger.render.toList ++ more = trigger.change.sign.toList ++ (c :: (rest ++ more)) := by
    rw [← List.cons_append, ← tail]
    simp [render, List.append_assoc]
  rw [text]
  cases trigger.change with
  | addition => exact (Source.opens_plus _).starts.mono (by decide)
  | deletion => exact (Source.opens_minus (by simp) (by simpa using other)).starts.mono (by decide)

end Trigger

namespace Plan

/-- A plan with its context and the conditions of its body regrouped to the left. -/
def reassociate (plan : Plan) : Plan :=
  { plan with
    context := plan.context.reassociate
    body := plan.body.map Statement.reassociate }

/-- The terms of a plan are read back from their own texts, and each statement shows what it is. -/
structure Survives (plan : Plan) : Prop where
  label : ∀ label ∈ plan.label, label.Survives
  trigger : plan.trigger.literal.Survives
  context : ∀ term ∈ plan.context.terms, term.Survives
  body : ∀ statement ∈ plan.body, statement.Survives

end Plan

def Rule.reassociate (rule : Rule) : Rule :=
  { rule with body := rule.body.reassociate }

namespace Clause

/-- A clause with its formulas regrouped to the left. -/
def reassociate : Clause → Clause
  | .rule defined => .rule defined.reassociate
  | .plan defined => .plan defined.reassociate
  | .belief fact => .belief fact
  | .goal literal => .goal literal

/-- The terms of a clause are read back from their own texts, and the statements of a plan show what they
are. -/
def Survives : Clause → Prop
  | .belief literal | .goal literal => literal.Survives
  | .rule defined => defined.head.Survives ∧ ∀ term ∈ defined.body.terms, term.Survives
  | .plan defined => defined.Survives

/-- The source text of a clause. -/
def render : Clause → String
  | .belief fact => fact.render ++ "."
  | .rule defined => defined.render
  | .goal literal => "!" ++ literal.render ++ "."
  | .plan defined => defined.render

theorem vars_reassociate (clause : Clause) : clause.reassociate.vars = clause.vars := by
  cases clause with
  | belief | goal => rfl
  | rule defined =>
    simp only [reassociate, vars, Rule.vars, Rule.reassociate, Formula.vars_reassociate]
  | plan defined =>
    simp only [reassociate, vars, Plan.reassociate, Formula.vars_reassociate,
      Statement.varsAll_eq_flatMap, List.flatMap_map, Statement.vars_reassociate]

theorem distinct_reassociate {clause : Clause} (distinct : Distinct clause) :
    Distinct clause.reassociate := by
  show (numbers clause.reassociate.vars).Nodup
  rw [vars_reassociate]
  exact distinct

end Clause

namespace Plan

/-- The text of a context behind a trigger. -/
def contextText (context : Formula) : List Char :=
  if context.isTruth then [] else [' ', ':', ' '] ++ context.render.toList

/-- The text of a body behind a context. -/
def bodyText (body : List Statement) : List Char :=
  if body = [] then []
  else "\n    ".toList ++ ['<', '-', ' '] ++
    Statement.joined ([';', '\n'] ++ "       ".toList) "    " body

variable {bound : Nat} {demand : Source.Demand} {context : Formula} {body : List Statement}

theorem divides_colon : Divides .colon [' ', ':', ' '] :=
  have plain : Divides .colon ([':'] ++ [' ']) :=
    divides_of_next (by decide) rfl (List.forall_mem_singleton.mpr (by decide)) fun _ => rfl
  plain.offset (List.forall_mem_singleton.mpr (by decide))

theorem divides_arrow : Divides .planArrow ("\n    ".toList ++ ['<', '-', ' ']) :=
  have plain : Divides .planArrow (['<', '-'] ++ [' ']) :=
    divides_of_next (by decide) rfl (List.forall_mem_singleton.mpr (by decide)) fun _ => rfl
  plain.offset (List.all_eq_true.mp (by decide))

theorem leads_body (body : List Statement) :
    Leads [.planArrow, .dot] (bodyText body ++ ['.', '\n']) demand := by
  rw [bodyText]
  split
  · exact divides_stop.leads (by decide) []
  · rw [List.append_assoc]
    exact divides_arrow.leads (by decide) _

theorem leads_context (context : Formula) (body : List Statement) :
    Leads [.colon, .planArrow, .dot] (contextText context ++ (bodyText body ++ ['.', '\n'])) demand := by
  rw [contextText]
  split
  · exact (leads_body body).mono (by decide)
  · rw [List.append_assoc]
    exact divides_colon.leads (by decide) _

theorem takes_context (legible : context.Legible) (survive : ∀ term ∈ context.terms, term.Survives)
    (distinct : Distinct context) :
    Takes bound parseContext (Front [.planArrow, .dot]) (contextText context)
      (Renumbered context.reassociate) := by
  rw [parseContext, contextText]
  split
  next isTruth =>
    rw [Formula.eq_truth isTruth]
    refine takes_unaccepted (by decide) (Source.starts_nil (List.Subset.refl _)) (by decide) ?_
    exact takes_pure ⟨id, rfl⟩
  next =>
    refine takes_accept (divides_colon.opens _) (by decide) fun less _ => ?_
    exact Formula.takes_parse legible survive distinct (by decide)

theorem takes_body (legible : Statement.AllLegible body)
    (survive : ∀ statement ∈ body, statement.Survives) (distinct : Distinct body) :
    Takes bound parseBody (Front [.dot]) (bodyText body)
      (Renumbered (body.map Statement.reassociate)) := by
  have each : ∀ statement ∈ body, statement.Taken := fun statement member =>
    (legible statement member).taken (survive statement member) (distinct.of_mem member)
  have divides : Divides .semicolon ([';', '\n'] ++ "       ".toList) :=
    Statement.divides_lineEnd (by decide) (List.all_eq_true.mp (by decide))
  rw [parseBody, bodyText]
  split
  next none =>
    subst none
    refine takes_unaccepted (by decide) (Source.starts_nil (List.Subset.refl _)) (by decide) ?_
    exact takes_pure ⟨id, rfl⟩
  next some =>
    refine takes_accept (divides_arrow.opens _) (by decide) fun less _ => ?_
    rw [if_pos rfl, Statement.parseBody]
    refine takes_budget fun less' _ => ?_
    exact Statement.takes_bodyWithin each distinct (List.all_eq_true.mp (by decide)) divides (by decide)
      some (Nat.le_refl _)

variable {plan : Plan} {label : Option Term}

theorem distinct_iff : Distinct (Clause.plan plan) ↔
    Distinct (((plan.label, plan.trigger.literal), plan.context), plan.body) := by
  show (numbers (Clause.plan plan).vars).Nodup ↔ _
  rw [Clause.vars, Statement.varsAll_eq_flatMap]
  rfl

/-- The text of a label on a line of its own. -/
def labelText (label : Option Term) : List Char :=
  label.elim [] fun label => ['@'] ++ (label.render.toList ++ ['\n'])

theorem toList_render (plan : Plan) : plan.render.toList ++ ['\n'] =
    labelText plan.label ++ (plan.trigger.render.toList ++
      (contextText plan.context ++ (bodyText plan.body ++ ['.', '\n']))) := by
  obtain ⟨trigger, context, body, label⟩ := plan
  have conditions : (if context.isTruth then "" else " : " ++ context.render).toList =
      contextText context := by
    unfold contextText
    split <;> simp
  have statements : (if body.isEmpty then ""
      else "\n    <- " ++ ";\n       ".intercalate (Statement.renderAll "    " body)).toList =
      bodyText body := by
    cases body with
    | nil => rfl
    | cons statement rest =>
      simp [bodyText, Statement.joined, Statement.renderAll_eq_map, String.toList_intercalate,
        Function.comp_def]
  rw [← conditions, ← statements]
  cases label <;> simp [render, labelText]

/-- What comes back for the text of a plan behind its label. -/
def Regains (plan : Plan) (label : Option Term) (found : Plan) : Prop :=
  ∃ literal context body, found = ⟨{ plan.trigger with literal }, context, body, label⟩ ∧
    Renumbered plan.trigger.literal literal ∧ Renumbered plan.context.reassociate context ∧
    Renumbered (plan.body.map Statement.reassociate) body

theorem Regains.renumbered {found : Plan} (regains : plan.Regains label found)
    (named : Renumbered plan.label label) (distinct : Distinct (Clause.plan plan)) :
    Renumbered (Clause.plan plan.reassociate) (.plan found) := by
  obtain ⟨literal, context, body, rfl, own, conditions, statements⟩ := regains
  have whole := distinct_iff.mp (Clause.distinct_reassociate distinct)
  have front := (distinct_pair_iff.mp whole).1
  have first := (distinct_pair_iff.mp front).1
  obtain ⟨f, same⟩ := ((named.pair own first).pair conditions front).pair statements whole
  obtain ⟨front, rfl⟩ := Prod.mk.inj same
  obtain ⟨first, rfl⟩ := Prod.mk.inj front
  obtain ⟨rfl, rfl⟩ := Prod.mk.inj first
  exact ⟨f, rfl⟩

/-- The text of a plan begins with its label or the sign of its trigger. -/
theorem starts_render (plan : Plan) (legible : plan.Legible) :
    Starts [.label, .plus, .minus] (plan.render.toList ++ ['\n']) demand := by
  rw [toList_render]
  cases named : plan.label with
  | none => exact (Trigger.starts_render legible.trigger _).mono (by decide)
  | some label =>
    obtain ⟨c, rest, text, start⟩ := (legible.label label named).first
    rw [labelText, Option.elim_some, List.append_assoc, text]
    have listed : (['@'], Kind.label) ∈ Source.signs := by decide
    exact (Source.opens_sign listed ⟨c, _, rfl, start⟩).starts.mono (by decide)

section Taken

variable (legible : plan.Legible) (survives : plan.Survives) (distinct : Distinct (Clause.plan plan))

include legible survives distinct

theorem takes_behindLabel (label : Option Term) :
    Takes bound (do
      let trigger ← Trigger.parse
      let context ← parseContext
      let body ← parseBody
      let _ ← expect .dot .dotAfterPlan
      return { trigger, context, body, label }) demand
      (plan.trigger.render.toList ++ (contextText plan.context ++ (bodyText plan.body ++ ['.', '\n'])))
      (plan.Regains label) := by
  obtain ⟨inFront, inBody, -⟩ := distinct_pair_iff.mp (distinct_iff.mp distinct)
  have inContext := (distinct_pair_iff.mp inFront).2.1
  have kept := legible.trigger.speakable.kept survives.trigger
  refine (Trigger.takes_parse legible.trigger kept (by decide) (by decide)).bind
    (leads_context plan.context plan.body) ?_
  rintro _ ⟨literal, rfl, own⟩
  refine (takes_context legible.context survives.context inContext).bind (leads_body plan.body)
    fun context conditions => ?_
  rw [← List.append_nil ['.', '\n']]
  refine (takes_body legible.body survives.body inBody).bind
    (divides_stop.leads (List.mem_singleton.mpr rfl) []) fun body statements => ?_
  refine takes_expect (divides_stop.opens []) (by decide) fun _ _ _ _ => takes_pure ?_
  exact ⟨literal, context, body, rfl, own, conditions, statements⟩

/-- A plan is taken from its text and the end of its line, whatever follows. -/
theorem takes_parse : Takes bound parse demand (plan.render.toList ++ ['\n'])
    fun found => Renumbered (Clause.plan plan.reassociate) (.plan found) := by
  have signs : Starts [.plus, .minus] (plan.trigger.render.toList ++
      (contextText plan.context ++ (bodyText plan.body ++ ['.', '\n']))) demand :=
    Trigger.starts_render legible.trigger _
  rw [toList_render, parse, parseLabel, bind_assoc]
  cases named : plan.label with
  | none =>
    refine takes_unaccepted (by decide) signs (by decide) ?_
    rw [if_neg Bool.false_ne_true, pure_bind]
    refine (takes_behindLabel legible survives distinct none).mono (Nat.le_refl _) fun found regains => ?_
    exact regains.renumbered (by rw [named]; exact ⟨id, rfl⟩) distinct
  | some label =>
    have callable := legible.label label named
    have kept := callable.speakable.kept (survives.label label named)
    rw [labelText, Option.elim_some, List.append_assoc, List.append_assoc]
    refine takes_accept (Source.opens_sign (by decide) ?_) (by decide) fun less _ => ?_
    · obtain ⟨c, rest, text, start⟩ := callable.first
      exact ⟨c, _, congrArg (· ++ _) text, start⟩
    rw [if_pos rfl, bind_assoc]
    refine (callable.takes (by decide) kept (by decide)).bind (signs.leads_blank (by decide))
      fun other own => ?_
    rw [pure_bind]
    refine ((takes_behindLabel legible survives distinct (some other)).behind_blank (by decide)).mono
      (Nat.le_refl _) fun found regains => ?_
    obtain ⟨f, rfl⟩ := own
    exact regains.renumbered (by rw [named]; exact ⟨f, rfl⟩) distinct

end Taken

end Plan

namespace Clause

variable {bound : Nat} {demand : Source.Demand}

theorem divides_ruleArrow : Divides .ruleArrow [' ', ':', '-', ' '] :=
  have plain : Divides .ruleArrow ([':', '-'] ++ [' ']) :=
    divides_of_next (by decide) rfl (List.forall_mem_singleton.mpr (by decide)) fun _ => rfl
  plain.offset (List.forall_mem_singleton.mpr (by decide))

section Heads

variable {rest : List Char} {kinds : List Kind} {given : Clause → Prop} {head : Term}
  (callable : head.Callable) (kept : head.Kept) (leads : Leads kinds rest demand)

include callable kept leads

/-- A clause that begins with a literal is a rule or a belief. -/
theorem takes_ruleOrBelief
    (taken : Takes bound parseRuleOrBelief demand (head.render.toList ++ rest) given) :
    Takes bound parse demand (head.render.toList ++ rest) given := by
  rw [parse]
  refine takes_peek (by decide) (kept.tidy.starts callable.begins leads) fun token listed => ?_
  simp only [List.mem_cons, List.not_mem_nil, or_false] at listed
  rcases listed with kind | kind | kind <;> simp only [kind] <;> exact taken

theorem takes_head (sure : ∀ kind ∈ kinds, kind ∉ [Kind.blockComment, .string, .unknown])
    (stops : .openParen ∉ kinds) {next : Token → Term → Parser Clause}
    (behind : ∀ first value, Renumbered head value → Takes bound (next first value) demand rest given) :
    Takes bound (peek >>= fun first => Term.parseLiteral >>= next first) demand
      (head.render.toList ++ rest) given := by
  refine takes_peek (by decide) (kept.tidy.starts callable.begins leads) fun first _ => ?_
  exact (callable.takes sure kept stops).bind leads (behind first)

end Heads

section Texts

variable {kinds : List Kind} {term : Term} (callable : term.Callable)

theorem leads_dot (listed : .dot ∈ kinds) : Leads kinds ['.', '\n'] demand :=
  divides_stop.leads listed []

include callable

theorem takes_belief (ground : term.isGround = true) (survives : (Clause.belief term).Survives) :
    Takes bound parse demand ((render (.belief term)).toList ++ ['\n'])
      (Renumbered (.belief term)) := by
  have kept := callable.speakable.kept survives
  have text : (render (.belief term)).toList ++ ['\n'] = term.render.toList ++ ['.', '\n'] := by
    simp [render]
  have leads : Leads [.dot] ['.', '\n'] demand := leads_dot (List.mem_singleton.mpr rfl)
  rw [text]
  refine takes_ruleOrBelief callable kept leads (takes_head callable kept leads (by decide) (by decide)
    fun first value own => ?_)
  obtain ⟨f, rfl⟩ := own
  have ground' : (Renames.rename (.renumber f) term).isGround = true :=
    (Term.isGround_rename _ term).trans ground
  refine takes_unaccepted (by decide) (divides_stop.opens []).starts (by decide) ?_
  rw [if_neg Bool.false_ne_true, if_neg (by simp [ground'])]
  exact takes_expect (divides_stop.opens []) (by decide) fun _ _ _ _ => takes_pure ⟨f, rfl⟩

theorem takes_rule {body : Formula} (legible : body.Legible)
    (survives : (Clause.rule ⟨term, body⟩).Survives) (distinct : Distinct (Clause.rule ⟨term, body⟩)) :
    Takes bound parse demand ((render (.rule ⟨term, body⟩)).toList ++ ['\n'])
      (Renumbered (Clause.rule ⟨term, body⟩).reassociate) := by
  obtain ⟨own, each⟩ := survives
  have parts : Distinct (term, body) := distinct
  have kept := callable.speakable.kept own
  have text : (render (.rule ⟨term, body⟩)).toList ++ ['\n'] = term.render.toList ++
      ([' ', ':', '-', ' '] ++ (body.render.toList ++ ['.', '\n'])) := by
    simp [render, Rule.render]
  have leads : Leads [.ruleArrow] ([' ', ':', '-', ' '] ++ (body.render.toList ++ ['.', '\n']))
      demand := divides_ruleArrow.leads (List.mem_singleton.mpr rfl) _
  rw [text]
  refine takes_ruleOrBelief callable kept leads (takes_head callable kept leads (by decide) (by decide)
    fun first value renumbered => ?_)
  refine takes_accept (divides_ruleArrow.opens _) (by decide) fun less _ => ?_
  rw [if_pos rfl]
  refine (Formula.takes_parse legible each (distinct_pair_iff.mp parts).2.1 (by decide)).bind
    (leads_dot (List.mem_singleton.mpr rfl)) fun body' conditions => ?_
  refine takes_expect (divides_stop.opens []) (by decide) fun _ _ _ _ => takes_pure ?_
  have whole : Distinct (term, body.reassociate) :=
    @distinct_reassociate (.rule ⟨term, body⟩) distinct
  obtain ⟨f, same⟩ := renumbered.pair conditions whole
  obtain ⟨rfl, rfl⟩ := Prod.mk.inj same
  exact ⟨f, rfl⟩

theorem takes_goal (survives : (Clause.goal term).Survives) :
    Takes bound parse demand ((render (.goal term)).toList ++ ['\n']) (Renumbered (.goal term)) := by
  have kept := callable.speakable.kept survives
  have text : (render (.goal term)).toList ++ ['\n'] =
      ['!'] ++ (term.render.toList ++ ['.', '\n']) := by
    simp [render]
  obtain ⟨c, rest, begins, start⟩ := callable.first
  have opens : Opens .bang ['!'] (term.render.toList ++ ['.', '\n']) :=
    Source.opens_sign (by decide) ⟨c, _, congrArg (· ++ _) begins, start⟩
  rw [text, parse]
  refine takes_peek (by decide) opens.starts fun token kind => ?_
  simp only [List.mem_singleton.mp kind]
  refine takes_advance opens (by decide) fun _ less _ _ => ?_
  rw [parseGoal]
  refine (callable.takes (by decide) kept (by decide)).bind (leads_dot (List.mem_singleton.mpr rfl))
    fun value own => ?_
  obtain ⟨f, rfl⟩ := own
  exact takes_expect (divides_stop.opens []) (by decide) fun _ _ _ _ => takes_pure ⟨f, rfl⟩

end Texts

theorem takes_plan {plan : Plan} (legible : plan.Legible) (survives : plan.Survives)
    (distinct : Distinct (Clause.plan plan)) :
    Takes bound parse demand (plan.render.toList ++ ['\n'])
      (Renumbered (Clause.plan plan.reassociate)) := by
  rw [parse]
  refine takes_peek (by decide) (plan.starts_render legible) fun token listed => ?_
  have taken : Takes bound (do return Clause.plan (← Plan.parse)) demand
      (plan.render.toList ++ ['\n']) (Renumbered (Clause.plan plan.reassociate)) :=
    (plan.takes_parse legible survives distinct).map fun found same => same
  simp only [List.mem_cons, List.not_mem_nil, or_false] at listed
  rcases listed with kind | kind | kind <;> simp only [kind] <;> exact taken

/-- A clause is taken from its text and the end of its line, whatever follows. -/
theorem takes_parse {clause : Clause} (legible : clause.Legible) (survives : clause.Survives)
    (distinct : Distinct clause) :
    Takes bound parse demand (clause.render.toList ++ ['\n']) (Renumbered clause.reassociate) := by
  cases legible with
  | belief fact callable ground => exact takes_belief callable ground survives
  | rule head body callable legible => exact takes_rule callable legible survives distinct
  | goal goal callable => exact takes_goal callable survives
  | plan plan legible => exact takes_plan legible survives distinct

end Clause

end AgentSpeak
