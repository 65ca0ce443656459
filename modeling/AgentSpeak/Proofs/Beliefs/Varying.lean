import AgentSpeak.Proofs.Beliefs.Answers
import AgentSpeak.Proofs.Formula.Legible
import AgentSpeak.Proofs.Substitution.Correspondence

/-!
Searches that differ in the names of variables and in the numbers that renamings of rules get. Each
renaming puts the new variables of both sides into correspondence, and so the answers of the two
searches correspond one by one, whatever else uses up numbers in the meantime.
-/

namespace AgentSpeak

variable {texts : Prop}

/-- The variables on both sides are named as they are read. -/
structure Correspondence.IsWritten (names : Correspondence texts) : Prop where
  left : ∀ {v}, names.knows v → v.IsWritten
  right : ∀ {v}, names.knows v → (names.name v).IsWritten

/-- The second rule is the first one with other names. -/
def Rule.Varies (texts : Prop) (rule other : Rule) : Prop :=
  ∃ names : Correspondence texts, names.IsWritten ∧ rule.head.Over names.knows ∧
    rule.body.Over names.knows ∧
    other = ⟨rule.head.rename names.name, rule.body.rename names.name⟩

/-- A rule whose variables are named as they are read is a variant of itself. -/
theorem Rule.varies_self {rule : Rule}
    (written : ∀ v ∈ rule.head.vars ++ rule.body.vars, v.IsWritten) : rule.Varies texts rule := by
  obtain ⟨head, body⟩ := List.forall_mem_append.mp written
  refine ⟨.same texts Variable.IsWritten, ⟨id, id⟩, head, body, ?_⟩
  rw [show (Correspondence.same texts Variable.IsWritten).name = id from rfl, Term.rename_id,
    Formula.rename_id]

/-- The variables that two runs have in use after so many renamings of rules on each side. -/
structure Stage (texts : Prop) extends Correspondence texts where
  count : Nat
  count' : Nat
  predates : toCorrespondence.Both (Variable.Predates count) (Variable.Predates count')

namespace Stage

/-- A variable that the renaming of a rule can have made. -/
def Numbered (v : Variable) : Prop :=
  ∃ (w : Variable) (n : Nat), v = w.mark [toString n]

/-- A later stage knows more variables, which are new and come from renamings of rules. -/
structure Leads (earlier later : Stage texts) : Prop where
  keeps : later.toCorrespondence.Extends earlier.toCorrespondence
  count : earlier.count ≤ later.count
  count' : earlier.count' ≤ later.count'
  numbered : ∀ {v}, later.knows v → earlier.knows v ∨ Numbered v ∧ Numbered (later.name v)

variable {first second third stage later : Stage texts} {source : Correspondence texts}
  {k k' : Nat} {t : Term} {θ : Substitution}

theorem Leads.refl (stage : Stage texts) : stage.Leads stage :=
  ⟨.refl _, Nat.le_refl _, Nat.le_refl _, .inl⟩

theorem Leads.trans (one : first.Leads second) (two : second.Leads third) : first.Leads third where
  keeps := two.keeps.trans one.keeps
  count := Nat.le_trans one.count two.count
  count' := Nat.le_trans one.count' two.count'
  numbered {v} known := by
    rcases two.numbered known with old | new
    · rcases one.numbered old with older | ⟨left, right⟩
      · exact .inl older
      · exact .inr ⟨left, two.keeps.name old ▸ right⟩
    · exact .inr new

theorem Leads.rename (leads : stage.Leads later) (inside : θ.Inside stage.knows) :
    θ.rename later.name = θ.rename stage.name :=
  Substitution.rename_congr fun v member => leads.keeps.name (inside v member)

theorem Leads.renameTerm (leads : stage.Leads later) (own : t.Over stage.knows) :
    t.rename later.name = t.rename stage.name :=
  Term.rename_congr fun v member => leads.keeps.name (own v member)

theorem Leads.renameFormula (leads : stage.Leads later) {formula : Formula}
    (own : formula.Over stage.knows) : formula.rename later.name = formula.rename stage.name :=
  Formula.rename_congr fun v member => leads.keeps.name (own v member)

theorem Leads.over (leads : stage.Leads later) (own : t.Over stage.knows) : t.Over later.knows :=
  own.mono fun _ => leads.keeps.knows

theorem Leads.inside (leads : stage.Leads later) (inside : θ.Inside stage.knows) :
    θ.Inside later.knows :=
  inside.mono fun _ => leads.keeps.knows

theorem fresh_mark (stage : Stage texts) (written : source.IsWritten) (after : stage.count < k)
    (after' : stage.count' < k') : Correspondence.Fresh stage.toCorrespondence source
      (Correspondence.marking texts (toString k) (toString k')) where
  left {v w} known own := (stage.predates v known).1 w k (written.left own) after
  right {v w} known own :=
    (stage.predates v known).2 (source.name w) k' (written.right own) after'

/-- The stage after a rule was renamed on both sides. -/
noncomputable def mark (stage : Stage texts) (source : Correspondence texts)
    (written : source.IsWritten) {k k' : Nat} (after : stage.count < k)
    (after' : stage.count' < k') : Stage texts where
  toCorrespondence := stage.graft source _ (stage.fresh_mark written after after')
  count := k
  count' := k'
  predates := by
    have old := stage.predates.mono (fun v own => own.mono (Nat.le_of_lt after))
      fun v own => own.mono (Nat.le_of_lt after')
    exact old.graft (fun w own => ⟨(written.left own).predates_mark k,
      (written.right own).predates_mark k'⟩) _

variable (written : source.IsWritten) (after : stage.count < k) (after' : stage.count' < k')

theorem leads_mark : stage.Leads (stage.mark source written after after') where
  keeps := Correspondence.graft_extends (stage.fresh_mark written after after')
  count := Nat.le_of_lt after
  count' := Nat.le_of_lt after'
  numbered {v} known := by
    rcases Correspondence.graft_cases
      (stage.fresh_mark written after after') known with ⟨old, -⟩ | ⟨w, own, rfl, same⟩
    · exact .inl old
    · exact .inr ⟨⟨w, k, rfl⟩, ⟨source.name w, k', same⟩⟩

theorem mark_knows {v : Variable} (own : source.knows v) :
    (stage.mark source written after after').knows (v.mark [toString k]) :=
  Correspondence.graft_knows (stage.fresh_mark written after after') own

theorem mark_name {v : Variable} (own : source.knows v) :
    (stage.mark source written after after').name (v.mark [toString k]) =
      (source.name v).mark [toString k'] :=
  Correspondence.graft_name (stage.fresh_mark written after after') own

theorem over_mark (own : t.Over source.knows) :
    (t.mark [toString k]).Over (stage.mark source written after after').knows :=
  Correspondence.over_graft (stage.fresh_mark written after after') own

theorem over_markFormula {formula : Formula} (own : formula.Over source.knows) :
    (formula.mark [toString k]).Over (stage.mark source written after after').knows :=
  Formula.over_mark fun v member => mark_knows written after after' (own v member)

theorem rename_mark (own : t.Over source.knows) :
    (t.mark [toString k]).rename (stage.mark source written after after').name =
      (t.rename source.name).mark [toString k'] :=
  Correspondence.rename_graft (stage.fresh_mark written after after') own

theorem rename_markFormula {formula : Formula} (own : formula.Over source.knows) :
    (formula.mark [toString k]).rename (stage.mark source written after after').name =
      (formula.rename source.name).mark [toString k'] := by
  rw [Formula.mark_eq_bind, Formula.mark_eq_bind]
  refine (Formula.bind_bind _ _ formula).trans (.trans ?_ (Formula.bind_bind _ _ formula).symm)
  refine Formula.bind_congr fun v member => ?_
  simp only [Term.bind_var]
  rw [mark_name written after after' (own v member)]

end Stage

namespace Search

/-- From a stage on, the second search is the first one with other names and numbers. It goes on at
any later stage, where any greater numbers are given to the renamings on the two sides. -/
inductive Varies : Stage texts → Search → Search → Prop where
  | done : Varies stage .done .done
  | failed (alike : fault.Alike texts fault') : Varies stage (.failed fault) (.failed fault')
  | answer (inside : θ.Inside stage.knows)
      (more : ∀ later : Stage texts, stage.Leads later → Varies later (rest ()) (rest' ())) :
      Varies stage (.answer θ rest) (.answer (θ.rename stage.name) rest')
  | facts (each : ∀ facts, (∀ fact ∈ facts, fact.isGround = true) →
      Varies stage (next facts) (next' facts)) : Varies stage (.facts key next) (.facts key next')
  | rules (each : ∀ rules rules', List.Forall₂ (Rule.Varies texts) rules rules' →
      Varies stage (next rules) (next' rules')) : Varies stage (.rules key next) (.rules key next')
  | fresh (source : Correspondence texts) (written : source.IsWritten)
      (each : ∀ (later : Stage texts) (k k' : Nat), stage.Leads later →
        ∀ (after : later.count < k) (after' : later.count' < k'),
          Varies (later.mark source written after after') (next k) (next' k')) :
      Varies stage (.fresh next) (.fresh next')

variable {stage later : Stage texts} {first second : Search} {θ : Substitution} {literal : Term}

/-- What the two searches do at a stage they do at every later one. -/
theorem Varies.onward (varies : Varies stage first second) (leads : stage.Leads later) :
    Varies later first second := by
  induction varies generalizing later with
  | done => exact .done
  | failed alike => exact .failed alike
  | answer inside more ih =>
    rw [← leads.rename inside]
    exact .answer (leads.inside inside) fun last further => more last (leads.trans further)
  | facts each ih => exact .facts fun facts ground => ih facts ground leads
  | rules each ih => exact .rules fun rules rules' vary => ih rules rules' vary leads
  | fresh source written each ih =>
    exact .fresh source written fun last k k' further => each last k k' (leads.trans further)

theorem varies_single (inside : θ.Inside stage.knows) :
    Varies stage (single θ) (single (θ.rename stage.name)) :=
  .answer inside fun _ _ => .done

theorem Varies.append {more more' : Unit → Search} (varies : Varies stage first second)
    (others : ∀ later : Stage texts, stage.Leads later → Varies later (more ()) (more' ())) :
    Varies stage (first.append more) (second.append more') := by
  induction varies with
  | done => exact others _ (.refl _)
  | failed alike => exact .failed alike
  | answer inside rest ih =>
    exact .answer inside fun later leads => ih later leads fun last further =>
      others last (leads.trans further)
  | facts each ih => exact .facts fun facts ground => ih facts ground others
  | rules each ih => exact .rules fun rules rules' vary => ih rules rules' vary others
  | fresh source written each ih =>
    exact .fresh source written fun later k k' leads after after' =>
      ih later k k' leads after after' fun last further =>
        others last ((leads.trans (Stage.leads_mark written after after')).trans further)

theorem Varies.bind {next next' : Substitution → Search} (varies : Varies stage first second)
    (each : ∀ (later : Stage texts) (θ : Substitution), stage.Leads later →
      θ.Inside later.knows → Varies later (next θ) (next' (θ.rename later.name))) :
    Varies stage (first.bind next) (second.bind next') := by
  induction varies with
  | done => exact .done
  | failed alike => exact .failed alike
  | answer inside rest ih =>
    exact (each _ _ (.refl _) inside).append fun later leads => ih later leads
      fun last θ further => each last θ (leads.trans further)
  | facts all ih => exact .facts fun facts ground => ih facts ground each
  | rules all ih => exact .rules fun rules rules' vary => ih rules rules' vary each
  | fresh source written all ih =>
    exact .fresh source written fun later k k' leads after after' =>
      ih later k k' leads after after' fun last θ further =>
        each last θ ((leads.trans (Stage.leads_mark written after after')).trans further)

theorem Varies.refute (varies : Varies stage first second) (inside : θ.Inside stage.knows) :
    Varies stage (first.refute θ) (second.refute (θ.rename stage.name)) := by
  induction varies with
  | done => exact varies_single inside
  | failed alike => exact .failed alike
  | answer => exact .done
  | facts each ih => exact .facts fun facts ground => ih facts ground inside
  | rules each ih => exact .rules fun rules rules' vary => ih rules rules' vary inside
  | fresh source written each ih =>
    refine .fresh source written fun later k k' leads after after' => ?_
    have onwards := leads.trans (Stage.leads_mark written after after')
    rw [← onwards.rename inside]
    exact ih later k k' leads after after' (onwards.inside inside)

theorem varies_ofResult {result result' : Except Fault (Option Substitution)}
    (agree : Concur texts (fun found found' => (∀ θ, found = some θ → θ.Inside stage.knows) ∧
      found' = found.map (Substitution.rename stage.name)) result result') :
    Varies stage (ofResult result) (ofResult result') := by
  cases agree with
  | error alike => exact .failed alike
  | @ok found found' own =>
    obtain ⟨inside, rfl⟩ := own
    cases found with
    | none => exact .done
    | some θ => exact varies_single (inside θ rfl)

section Solving

variable (check : Bool)

theorem varies_matching (own : literal.Over stage.knows) (inside : θ.Inside stage.knows)
    {facts : List Term} (ground : ∀ fact ∈ facts, fact.isGround = true) :
    Varies stage (matching check literal θ facts)
      (matching check (literal.rename stage.name) (θ.rename stage.name) facts) := by
  induction facts with
  | nil => exact .done
  | cons fact rest ih =>
    obtain ⟨first, others⟩ := List.forall_mem_cons.mp ground
    have factOver : fact.Over stage.knows := Term.over_of_isGround first
    have unified := stage.unify?_name own factOver inside check
    rw [show fact.rename stage.name = fact from Term.bind_of_isGround first _] at unified
    rw [matching, matching, unified]
    cases found : θ.unify? check literal fact with
    | none => exact ih others
    | some extended =>
      exact .answer (inside.unify? own factOver found) fun later leads => (ih others).onward leads

theorem varies_applying {prove : Formula → Substitution → Search}
    (proves : ∀ (stage : Stage texts) formula θ, formula.Over stage.knows →
      θ.Inside stage.knows →
        Varies stage (prove formula θ) (prove (formula.rename stage.name) (θ.rename stage.name)))
    (own : literal.Over stage.knows) (inside : θ.Inside stage.knows) {rules rules' : List Rule}
    (vary : List.Forall₂ (Rule.Varies texts) rules rules') :
    Varies stage (applying check prove literal θ rules)
      (applying check prove (literal.rename stage.name) (θ.rename stage.name) rules') := by
  induction vary generalizing stage with
  | nil => exact .done
  | @cons rule rule' rest rest' variant others ih =>
    obtain ⟨source, written, headOver, bodyOver, rfl⟩ := variant
    refine .fresh source written fun later k k' leads after after' => ?_
    have onwards := leads.trans (Stage.leads_mark written after after')
    let marked := later.mark source written after after'
    have more (last : Stage texts) (further : marked.Leads last) :
        Varies last (applying check prove literal θ rest)
          (applying check prove (literal.rename stage.name) (θ.rename stage.name) rest') := by
      have whole := onwards.trans further
      rw [← whole.rename inside, ← whole.renameTerm own]
      exact ih (whole.over own) (whole.inside inside)
    have unified := marked.unify?_name (onwards.over own)
      (Stage.over_mark written after after' headOver) (onwards.inside inside) check
    rw [Stage.rename_mark written after after' headOver, onwards.renameTerm own,
      onwards.rename inside] at unified
    simp only [Rule.mark, unified]
    cases found : θ.unify? check literal (rule.head.mark [toString k]) with
    | none => exact more marked (.refl _)
    | some extended =>
      have bodyMarked := Stage.over_markFormula written after after' bodyOver
      have extendedInside := (onwards.inside inside).unify? (onwards.over own)
        (Stage.over_mark written after after' headOver) found
      have proved := proves marked _ extended bodyMarked extendedInside
      rw [Stage.rename_markFormula written after after' bodyOver] at proved
      exact proved.append more

theorem varies_asking {prove : Formula → Substitution → Search}
    (proves : ∀ (stage : Stage texts) formula θ, formula.Over stage.knows →
      θ.Inside stage.knows →
        Varies stage (prove formula θ) (prove (formula.rename stage.name) (θ.rename stage.name)))
    (own : literal.Over stage.knows) (inside : θ.Inside stage.knows) :
    Varies stage (asking check prove literal θ)
      (asking check prove (literal.rename stage.name) (θ.rename stage.name)) := by
  have filed (key : Indicator) {walked : Term} (own : walked.Over stage.knows) : Varies stage
      (.facts key fun facts => (matching check walked θ facts).append fun _ =>
        .rules key (applying check prove walked θ))
      (.facts key fun facts => (matching check (walked.rename stage.name) (θ.rename stage.name)
        facts).append fun _ => .rules key
          (applying check prove (walked.rename stage.name) (θ.rename stage.name))) := by
    refine .facts fun facts ground => (varies_matching check own inside ground).append
      fun later leads => ?_
    rw [← leads.rename inside, ← leads.renameTerm own]
    exact .rules fun rules rules' vary =>
      varies_applying check proves (leads.over own) (leads.inside inside) vary
  have refused {walked : Term} (own : walked.Over stage.knows) : Varies stage
      (.failed (.notQueryable walked)) (.failed (.notQueryable (walked.rename stage.name))) :=
    .failed (stage.alike_name (fun _ _ => rfl) own)
  have walkedOver := inside.over.walk own
  unfold asking
  rw [stage.walk_name own inside]
  generalize θ.walk literal = walked at walkedOver
  cases walked with
  | atom name =>
    rw [Term.rename_atom]
    split
    · exact varies_single inside
    · exact .done
    · exact Term.rename_atom stage.name name ▸ filed ⟨name, 0⟩ walkedOver
  | compound functor arguments =>
    have known := filed ⟨functor, arguments.length⟩ walkedOver
    rw [Term.rename_compound] at known ⊢
    simpa only [Term.indicator?, List.length_map] using known
  | number value => exact Term.rename_number stage.name value ▸ refused walkedOver
  | string value => exact Term.rename_string stage.name value ▸ refused walkedOver
  | var v => exact Term.rename_var stage.name v ▸ refused walkedOver

theorem varies_relating (relation : Relation) {left right : Term} (leftOver : left.Over stage.knows)
    (rightOver : right.Over stage.knows) (inside : θ.Inside stage.knows) :
    Varies stage (relating check relation left right θ)
      (relating check relation (left.rename stage.name) (right.rename stage.name)
        (θ.rename stage.name)) := by
  have compared (relation : Relation) := stage.compare_name leftOver rightOver inside relation
  refine varies_ofResult ?_
  cases relation with
  | unify =>
    refine (stage.resolve_name leftOver inside).bind fun s s' first => ?_
    refine (stage.resolve_name rightOver inside).bind fun t t' second => ?_
    rw [first.same, second.same]
    refine .ok ⟨fun extended found => inside.unify? first.known second.known found, ?_⟩
    exact stage.unify?_name first.known second.known inside check
  | _ =>
    refine (compared _).bind ?_
    rintro _ holds rfl
    refine .ok ⟨fun extended found => ?_, ?_⟩
    · split at found
      · cases found
        exact inside
      · cases found
    · cases holds <;> rfl

/-- Where literals vary in their names, so do formulas. -/
theorem varies_solvingWith {ask : Term → Substitution → Search}
    (asks : ∀ (stage : Stage texts) term θ, term.Over stage.knows → θ.Inside stage.knows →
      Varies stage (ask term θ) (ask (term.rename stage.name) (θ.rename stage.name)))
    {formula : Formula} (own : formula.Over stage.knows) (inside : θ.Inside stage.knows) :
    Varies stage (solvingWith check ask formula θ)
      (solvingWith check ask (formula.rename stage.name) (θ.rename stage.name)) := by
  induction formula generalizing stage θ with
  | literal term => exact asks stage term θ own inside
  | negation formula ih => exact (ih own inside).refute inside
  | conjunction left right leftIh rightIh =>
    obtain ⟨leftOver, rightOver⟩ := List.forall_mem_append.mp own
    refine (leftIh leftOver inside).bind fun later θ leads inside => ?_
    show Varies later _ (solvingWith check ask (right.rename stage.name) _)
    rw [← leads.renameFormula rightOver]
    exact rightIh (fun v member => leads.keeps.knows (rightOver v member)) inside
  | disjunction left right leftIh rightIh =>
    obtain ⟨leftOver, rightOver⟩ := List.forall_mem_append.mp own
    refine (leftIh leftOver inside).append fun later leads => ?_
    show Varies later _ (solvingWith check ask (right.rename stage.name) _)
    rw [← leads.rename inside, ← leads.renameFormula rightOver]
    exact rightIh (fun v member => leads.keeps.knows (rightOver v member)) (leads.inside inside)
  | comparison relation left right =>
    obtain ⟨leftOver, rightOver⟩ := List.forall_mem_append.mp own
    exact varies_relating check relation leftOver rightOver inside

theorem varies_queryWithin (limits : Limits) (levels : Nat) (own : literal.Over stage.knows)
    (inside : θ.Inside stage.knows) :
    Varies stage (queryWithin limits levels literal θ)
      (queryWithin limits levels (literal.rename stage.name) (θ.rename stage.name)) := by
  induction levels generalizing stage literal θ with
  | zero =>
    rw [queryWithin, queryWithin, stage.apply_name own inside]
    exact .failed (stage.alike_name (fun _ _ => rfl) (inside.over.apply own))
  | succ levels ih =>
    exact varies_asking limits.occursCheck (fun stage formula θ own inside =>
      varies_solvingWith limits.occursCheck (fun stage literal θ own inside => ih own inside)
        own inside) own inside

theorem varies_query (limits : Limits) (own : literal.Over stage.knows)
    (inside : θ.Inside stage.knows) :
    Varies stage (query limits literal θ)
      (query limits (literal.rename stage.name) (θ.rename stage.name)) :=
  varies_queryWithin limits _ own inside

/-- The search for a formula with other names varies in names and numbers only. -/
theorem varies_solve (limits : Limits) {formula : Formula} (own : formula.Over stage.knows)
    (inside : θ.Inside stage.knows) :
    Varies stage (solve limits formula θ)
      (solve limits (formula.rename stage.name) (θ.rename stage.name)) :=
  varies_solvingWith limits.occursCheck (fun _ _ _ => varies_query limits) own inside

end Solving

end Search

theorem BeliefBase.Ordered.ground_get {base : BeliefBase} (ordered : base.Ordered)
    (key : Indicator) : ∀ fact ∈ base.groups.get key, fact.isGround = true :=
  fun fact member => ordered.ground fact (Groups.mem_toList_of_mem_get member)

/-- Two bases with the same facts and with rules that differ in the names of their variables. -/
structure BeliefBase.Varies (texts : Prop) (base other : BeliefBase) : Prop where
  groups : other.groups = base.groups
  ordered : base.Ordered
  rules : ∀ key, List.Forall₂ (Rule.Varies texts) (base.ruleGroups.get key)
    (other.ruleGroups.get key)

theorem BeliefBase.Varies.renamed {base other : BeliefBase} (vary : base.Varies texts other)
    (n n' : Nat) : BeliefBase.Varies texts { base with renamings := n }
      { other with renamings := n' } :=
  ⟨vary.groups, vary.ordered.renamed n, vary.rules⟩

/-- As many renamings as a stage counts have happened. -/
structure Stage.Fits (stage : Stage texts) (base other : BeliefBase) : Prop where
  count : stage.count ≤ base.renamings
  count' : stage.count' ≤ other.renamings

theorem Stage.Fits.later {stage : Stage texts} {base other after after' : BeliefBase}
    (fits : stage.Fits base other) (one : base.renamings ≤ after.renamings)
    (two : other.renamings ≤ after'.renamings) : stage.Fits after after' :=
  ⟨Nat.le_trans fits.count one, Nat.le_trans fits.count' two⟩

/-- The two searches come to corresponding stops. -/
inductive Search.Step.Varies (stage : Stage texts) : Search.Step → Search.Step → Prop where
  | ended : Varies stage .ended .ended
  | failed (alike : fault.Alike texts fault') : Varies stage (.failed fault) (.failed fault')
  | found (inside : θ.Inside stage.knows) (rest : Search.Varies stage search search') :
      Varies stage (.found θ search) (.found (θ.rename stage.name) search')

namespace BeliefBase

variable {base other : BeliefBase} {stage : Stage texts} {search search' : Search}

/-- Resumed with corresponding bases, corresponding searches come to corresponding stops. -/
theorem Varies.next (bases : base.Varies texts other) (varies : search.Varies stage search')
    (fits : stage.Fits base other) :
    ∃ later, stage.Leads later ∧ later.Fits (base.next search).2 (other.next search').2 ∧
      Search.Step.Varies later (base.next search).1 (other.next search').1 := by
  induction varies generalizing base other with
  | done => exact ⟨_, .refl _, fits, .ended⟩
  | failed alike => exact ⟨_, .refl _, fits, .failed alike⟩
  | answer inside more => exact ⟨_, .refl _, fits, .found inside (more _ (.refl _))⟩
  | @facts _ _ _ key each ih =>
    have same : other.groups.get key = base.groups.get key := by rw [bases.groups]
    have own := ih (base.groups.get key) (bases.ordered.ground_get key) bases fits
    rw [BeliefBase.next, BeliefBase.next, same]
    exact own
  | rules each ih => exact ih _ _ (bases.rules _) bases fits
  | fresh source written each ih =>
    have after := Nat.lt_succ_of_le fits.count
    have after' := Nat.lt_succ_of_le fits.count'
    obtain ⟨later, leads, own⟩ := ih _ _ _ (.refl _) after after'
      (bases.renamed (base.renamings + 1) (other.renamings + 1)) ⟨Nat.le_refl _, Nat.le_refl _⟩
    exact ⟨later, (Stage.leads_mark written after after').trans leads, own⟩

theorem Varies.after (bases : base.Varies texts other) (search search' : Search) :
    (base.next search).2.Varies texts (other.next search').2 := by
  obtain ⟨n, -, same⟩ := base.next_eq search
  obtain ⟨n', -, same'⟩ := other.next_eq search'
  rw [same, same']
  exact bases.renamed n n'

end BeliefBase

end AgentSpeak
