import AgentSpeak.Proofs.Source.Giving
import AgentSpeak.Proofs.Source.Layout
import AgentSpeak.Proofs.Source.Orderly
import AgentSpeak.Proofs.Term.Survival

namespace AgentSpeak.Source

/-- What a text asks of the text behind it. -/
abbrev Demand := Position → List Char → Token → Prop

/-- The text behind carries on no token and begins with a token of one of some kinds. -/
structure Front (kinds : List Kind) (position : Position) (text : List Char) (finish : Token) :
    Prop where
  detached : Detached text
  listed : (edge (scan position text) finish).kind ∈ kinds

/-- In front of what it asks for, a text begins with a token of one of some kinds. -/
def Starts (kinds : List Kind) (text : List Char) (demand : Demand) : Prop :=
  ∀ position more finish, demand (position.after text) more finish →
    (edge (scan position (text ++ more)) finish).kind ∈ kinds

/-- In front of what it asks for, a text gives the text before it what that one asks for. -/
def Leads (kinds : List Kind) (text : List Char) (demand : Demand) : Prop :=
  ∀ position more finish, demand (position.after text) more finish →
    Front kinds position (text ++ more) finish

/-- A text is one token of a kind in front of another one, but for white space. -/
def Opens (kind : Kind) (sign text : List Char) : Prop :=
  ∀ position more, ∃ token : Token, token.kind = kind ∧
    scan position (sign ++ (text ++ more)) = token :: scan (position.after sign) (text ++ more)

/-- A text is one token of a kind, but for white space, and parts whatever stands before it from whatever
stands behind it. -/
structure Divides (kind : Kind) (sign : List Char) : Prop where
  detached : ∀ more, Detached (sign ++ more)
  scanned : ∀ position more, ∃ token : Token, token.kind = kind ∧
    scan position (sign ++ more) = token :: scan (position.after sign) more

section Parts

variable {kind : Kind} {kinds others : List Kind} {sign gap text : List Char} {demand : Demand}

theorem leads_nil (fewer : kinds ⊆ others) : Leads others [] (Front kinds) :=
  fun _ _ _ front => ⟨front.detached, fewer front.listed⟩

theorem Opens.starts (opens : Opens kind sign text) : Starts [kind] (sign ++ text) demand := by
  intro position more finish _
  obtain ⟨token, rfl, scanned⟩ := opens position more
  rw [List.append_assoc, scanned]
  exact List.mem_singleton.mpr rfl

/-- White space before a text sets it off. -/
theorem Starts.leads_blank {c : Char} (starts : Starts kinds text demand)
    (blank : Text.isBlank c = true) : Leads kinds (c :: text) demand := by
  intro position more finish asked
  rw [List.cons_append]
  refine ⟨detached_blank blank _, ?_⟩
  rw [scan_blank blank]
  exact starts (position.next c) more finish asked

theorem Leads.mono (leads : Leads kinds text demand) (fewer : kinds ⊆ others) :
    Leads others text demand :=
  fun position more finish asked =>
    ⟨(leads position more finish asked).detached, fewer (leads position more finish asked).listed⟩

theorem Starts.mono (starts : Starts kinds text demand) (fewer : kinds ⊆ others) :
    Starts others text demand :=
  fun position more finish asked => fewer (starts position more finish asked)

theorem starts_nil (fewer : kinds ⊆ others) : Starts others [] (Front kinds) :=
  fun _ _ _ front => fewer front.listed

theorem Leads.starts (leads : Leads kinds text demand) : Starts kinds text demand :=
  fun position more finish asked => (leads position more finish asked).listed

theorem Divides.opens (divides : Divides kind sign) (text : List Char) : Opens kind sign text :=
  fun position more => divides.scanned position (text ++ more)

theorem Divides.leads (divides : Divides kind sign) (listed : kind ∈ kinds) (text : List Char) :
    Leads kinds (sign ++ text) demand := by
  intro position more finish _
  obtain ⟨token, rfl, scanned⟩ := divides.scanned position (text ++ more)
  rw [List.append_assoc]
  refine ⟨divides.detached _, ?_⟩
  rw [scanned]
  exact listed

/-- White space before a sign belongs to it. -/
theorem Divides.offset (divides : Divides kind sign) (blank : ∀ c ∈ gap, Text.isBlank c = true) :
    Divides kind (gap ++ sign) where
  detached more := by
    cases gap with
    | nil => exact divides.detached more
    | cons c gap => exact detached_blank (blank c List.mem_cons_self) _
  scanned position more := by
    rw [List.append_assoc, scan_blanks blank, Position.after_append]
    exact divides.scanned _ more

/-- White space behind a sign belongs to it. -/
theorem Divides.spaced (divides : Divides kind sign) (blank : ∀ c ∈ gap, Text.isBlank c = true) :
    Divides kind (sign ++ gap) where
  detached more := by
    rw [List.append_assoc]
    exact divides.detached _
  scanned position more := by
    obtain ⟨token, same, scanned⟩ := divides.scanned position (gap ++ more)
    rw [List.append_assoc, scanned, scan_blanks blank, Position.after_append]
    exact ⟨token, same, rfl⟩

theorem divides_punctuation {c : Char} (listed : (c, kind) ∈ punctuation) : Divides kind [c] where
  detached more := by
    have each : ∀ entry ∈ punctuation, separates entry.1 = true := by decide
    exact detached_cons (each (c, kind) listed) more
  scanned position more := ⟨_, rfl, scan_punctuation listed position more⟩

/-- A sign in front of white space. -/
theorem divides_of_next {c : Char} {tail : List Char} (apart : separates c = true)
    (seen : kind.isTrivia = false) (blank : ∀ c ∈ gap, Text.isBlank c = true)
    (next : ∀ more, Lexeme.next c (tail ++ (gap ++ more)) = ⟨kind, c :: tail, gap ++ more, true⟩) :
    Divides kind (c :: tail ++ gap) where
  detached more := detached_cons apart _
  scanned position more := by
    refine ⟨⟨kind, c :: tail, position, true⟩, rfl, ?_⟩
    rw [List.append_assoc, List.cons_append, scan_token (next more) seen, scan_blanks blank,
      Position.after_append]

theorem scan_dot (position : Position) (text : List Char) :
    scan position ('.' :: text) = ⟨.dot, ['.'], position, true⟩ :: scan (position.next '.') text :=
  scan_token (show Lexeme.next '.' text = _ from rfl) rfl position

/-- A full stop at the end of a line. -/
theorem divides_stop : Divides .dot ['.', '\n'] where
  detached more := by
    rintro c ⟨⟩
    exact ⟨by decide, by decide, by decide, fun _ d same => Option.some.inj same ▸ by decide⟩
  scanned position more :=
    ⟨_, rfl, (scan_dot position _).trans (congrArg _ (scan_blank (by decide) _ more))⟩

/-- A sign that stands right before something. -/
theorem opens_of_next {c : Char} {tail : List Char} (seen : kind.isTrivia = false)
    (next : ∀ more, Lexeme.next c (tail ++ (text ++ more)) = ⟨kind, c :: tail, text ++ more, true⟩) :
    Opens kind (c :: tail) text :=
  fun position more => ⟨_, rfl, scan_token (next more) seen position⟩

theorem opens_plus (text : List Char) : Opens .plus ['+'] text :=
  opens_of_next rfl fun _ => rfl

theorem opens_minus (nonempty : text ≠ []) (other : text.head? ≠ some '+') :
    Opens .minus ['-'] text := by
  refine opens_of_next rfl fun more => next_minus ?_
  rwa [List.nil_append, List.head?_append_of_ne_nil _ nonempty]

/-- The signs that stand right before a name. -/
def signs : List (List Char × Kind) :=
  [(['!'], .bang), (['!', '!'], .bangBang), (['?'], .question), (['+'], .plus), (['-'], .minus),
    (['-', '+'], .minusPlus), (['@'], .label)]

/-- A sign does not go on with a name. -/
theorem opens_sign (listed : (sign, kind) ∈ signs)
    (name : ∃ c rest, text = c :: rest ∧ Lexeme.isNameStart c = true) : Opens kind sign text := by
  obtain ⟨c, rest, rfl, start⟩ := name
  have ends (more : List Char) :
      ∀ d ∈ (c :: rest ++ more).head?, d ∉ ['-', '!', '+', '*', '=', '/'] := by
    rintro _ ⟨⟩ member
    have marks : (['-', '!', '+', '*', '=', '/'].all fun mark => !Lexeme.isNameStart mark) = true := by
      decide
    exact absurd start (by simpa using List.all_eq_true.mp marks c member)
  have operator (first : Char) (tail more : List Char) :=
    Lexeme.operator_followedBy (ends more) first tail
  simp only [signs, List.mem_cons, Prod.mk.injEq, List.not_mem_nil, or_false] at listed
  rcases listed with ⟨rfl, rfl⟩ | ⟨rfl, rfl⟩ | ⟨rfl, rfl⟩ | ⟨rfl, rfl⟩ | ⟨rfl, rfl⟩ | ⟨rfl, rfl⟩ |
    ⟨rfl, rfl⟩
  · exact opens_of_next rfl (operator '!' [])
  · exact opens_of_next rfl (operator '!' ['!'])
  · exact opens_of_next rfl (operator '?' [])
  · exact opens_of_next rfl (operator '+' [])
  · exact opens_of_next rfl (operator '-' [])
  · exact opens_of_next rfl (operator '-' ['+'])
  · exact opens_of_next rfl (operator '@' [])

end Parts

namespace Parser

variable {α β : Type}

/-- Wherever a text stands in front of what it asks for, a parser takes it and gives a value with a
property. At the beginning there are at most as many tokens as a bound. -/
def Takes (bound : Nat) (parser : Parser α) (demand : Demand) (text : List Char)
    (given : α → Prop) : Prop :=
  ∀ (position : Position) (more : List Char) (finish : Token) (w : Nat),
    finish.kind = .endOfInput → demand (position.after text) more finish →
    (scan position (text ++ more)).length ≤ bound →
    ∃ value count, given value ∧ parser ⟨scan position (text ++ more), finish, w⟩ =
      (.ok value, ⟨scan (position.after text) more, finish, count⟩)

variable {bound : Nat} {parser : Parser α} {demand : Demand} {kind : Kind} {kinds : List Kind}
  {sign text rest : List Char} {given : α → Prop} {result : β → Prop}

theorem takes_pure {value : α} (done : given value) : Takes bound (pure value) demand [] given :=
  fun _ _ _ w _ _ _ => ⟨value, w, done, rfl⟩

theorem Takes.mono {given' : α → Prop} {less : Nat} (takes : Takes bound parser demand text given)
    (fewer : less ≤ bound) (more : ∀ value, given value → given' value) :
    Takes less parser demand text given' := by
  intro position behind finish w ended asked few
  obtain ⟨value, count, done, ran⟩ :=
    takes position behind finish w ended asked (Nat.le_trans few fewer)
  exact ⟨value, count, more value done, ran⟩

theorem Takes.stricter {demand' : Demand} (takes : Takes bound parser demand text given)
    (more : ∀ position behind finish, demand' position behind finish → demand position behind finish) :
    Takes bound parser demand' text given :=
  fun position behind finish w ended asked few =>
    takes position behind finish w ended (more _ _ _ asked) few

theorem sound_scan {finish : Token} (ended : finish.kind = .endOfInput) (position : Position)
    (text : List Char) (w : Nat) : (Cursor.mk (scan position text) finish w).Sound :=
  ⟨ended, fun _ => spelled_scan⟩

/-- White space before a text is passed over. -/
theorem Takes.behind_blank {c : Char} (takes : Takes bound parser demand text given)
    (blank : Text.isBlank c = true) : Takes bound parser demand (c :: text) given := by
  intro position more finish w ended asked few
  rw [List.cons_append, scan_blank blank] at few ⊢
  exact takes (position.next c) more finish w ended asked few

/-- One part of a text behind another that asks for what this one gives. -/
theorem Takes.append [Orderly anyToken parser] {next : α → Parser β} {demand' : Demand}
    (first : Takes bound parser demand' text given)
    (gives : ∀ position more finish, demand (position.after rest) more finish →
      demand' position (rest ++ more) finish)
    (second : ∀ value, given value → Takes bound (next value) demand rest result) :
    Takes bound (parser >>= next) demand (text ++ rest) result := by
  intro position more finish w ended asked few
  rw [Position.after_append] at asked ⊢
  rw [List.append_assoc] at few ⊢
  obtain ⟨value, count, done, ran⟩ := first position (rest ++ more) finish w ended
    (gives _ more finish asked) few
  have fewer := Orderly.length_le parser (sound_scan ended position (text ++ (rest ++ more)) w)
  rw [ran] at fewer
  rw [run_then ran]
  exact second value done _ more finish count ended asked (Nat.le_trans fewer few)

theorem Takes.bind [Orderly anyToken parser] {next : α → Parser β}
    (first : Takes bound parser (Front kinds) text given) (leads : Leads kinds rest demand)
    (second : ∀ value, given value → Takes bound (next value) demand rest result) :
    Takes bound (parser >>= next) demand (text ++ rest) result :=
  first.append leads second

/-- The last step that takes a part of the text. -/
theorem Takes.last [Orderly anyToken parser] {next : α → Parser β}
    (first : Takes bound parser demand text given)
    (second : ∀ value, given value → Takes bound (next value) demand [] result) :
    Takes bound (parser >>= next) demand text result := by
  rw [← List.append_nil text]
  exact first.append (fun _ _ _ asked => asked) second

theorem Takes.map [Orderly anyToken parser] {f : α → β}
    (takes : Takes bound parser demand text given) (done : ∀ value, given value → result (f value)) :
    Takes bound (parser >>= fun value => pure (f value)) demand text result :=
  takes.last fun value own => takes_pure (done value own)

theorem takes_budget {next : Nat → Parser β}
    (rest : ∀ less, less ≤ bound → Takes less (next (less + 1)) demand text result) :
    Takes bound (budget >>= next) demand text result := by
  intro position more finish w ended asked few
  rw [run_then (run_budget _)]
  exact rest _ few position more finish w ended asked (Nat.le_refl _)

section Front

variable (sure : ∀ kind ∈ kinds, kind ∉ [Kind.blockComment, .string, .unknown])
  (starts : Starts kinds text demand)

include sure starts

theorem takes_peek {next : Token → Parser β}
    (rest : ∀ token : Token, token.kind ∈ kinds → Takes bound (next token) demand text result) :
    Takes bound (peek >>= next) demand text result := by
  intro position more finish w ended asked few
  have listed := starts position more finish asked
  have formed : (edge (scan position (text ++ more)) finish).problem? = none :=
    formed_of_kind rfl (sure _ listed)
  rw [run_then (@run_peek_formed ⟨scan position (text ++ more), finish, w⟩ formed)]
  exact rest _ listed position more finish w ended asked few

theorem takes_unchecked {next : Bool → Parser β} (other : kind ∉ kinds)
    (rest : Takes bound (next false) demand text result) :
    Takes bound (check kind >>= next) demand text result := by
  rw [check_bind]
  refine takes_peek sure starts fun token listed => ?_
  have different : token.kind ≠ kind := fun same => other (same ▸ listed)
  rwa [decide_eq_false different]

theorem takes_unaccepted {next : Bool → Parser β} (other : kind ∉ kinds)
    (rest : Takes bound (next false) demand text result) :
    Takes bound (accept kind >>= next) demand text result := by
  rw [accept_bind]
  refine takes_peek sure starts fun token listed => ?_
  have different : token.kind ≠ kind := fun same => other (same ▸ listed)
  rwa [if_neg different]

end Front

section Signs

variable (opens : Opens kind sign text)
  (sure : kind ∉ [Kind.blockComment, .string, .unknown])

include opens sure

theorem takes_advance {next : Token → Parser β}
    (rest : ∀ (token : Token) (less : Nat), token.kind = kind → less < bound →
      Takes less (next token) demand text result) :
    Takes bound (advance >>= next) demand (sign ++ text) result := by
  intro position more finish w ended asked few
  obtain ⟨token, same, scanned⟩ := opens position more
  rw [Position.after_append] at asked ⊢
  rw [List.append_assoc, scanned, List.length_cons] at few
  have formed : token.problem? = none := formed_of_kind same sure
  rw [List.append_assoc, scanned, run_then (@run_advance ⟨token :: _, finish, w⟩ formed)]
  exact rest token _ same few _ more finish w ended asked (Nat.le_refl _)

theorem takes_expect {next : Token → Parser β} {expectation : Expectation}
    (rest : ∀ (token : Token) (less : Nat), token.kind = kind → less < bound →
      Takes less (next token) demand text result) :
    Takes bound (expect kind expectation >>= next) demand (sign ++ text) result := by
  rw [expect_bind]
  refine takes_peek (List.forall_mem_singleton.mpr sure) opens.starts fun token same => ?_
  rw [if_pos (List.mem_singleton.mp same)]
  exact takes_advance opens sure rest

theorem takes_accept {next : Bool → Parser β}
    (rest : ∀ less, less < bound → Takes less (next true) demand text result) :
    Takes bound (accept kind >>= next) demand (sign ++ text) result := by
  rw [accept_bind]
  refine takes_peek (List.forall_mem_singleton.mpr sure) opens.starts fun token same => ?_
  rw [if_pos (List.mem_singleton.mp same)]
  exact takes_advance opens sure fun token less _ fewer => rest less fewer

end Signs

/-- What a parser gives a value for begins with a well-formed token that is not of a kind. -/
def Refuses (kind : Kind) (parser : Parser α) : Prop :=
  ∀ cursor value after, cursor.finish.kind = .endOfInput → parser cursor = (.ok value, after) →
    cursor.token.problem? = none ∧ cursor.token.kind ≠ kind

theorem Refuses.bind (refuses : Refuses kind parser) (next : α → Parser β) :
    Refuses kind (parser >>= next) := by
  intro cursor value after ended done
  obtain ⟨first, middle, ran, -⟩ := ok_bind done
  exact refuses cursor first middle ended ran

section Refused

variable {next : Bool → Parser β} (refuses : Refuses kind (next false))
  (passed : Takes bound (next false) demand text result)

include refuses passed

theorem takes_check_refused : Takes bound (check kind >>= next) demand text result := by
  intro position more finish w ended asked few
  obtain ⟨value, count, done, ran⟩ := passed position more finish w ended asked few
  obtain ⟨formed, other⟩ := refuses _ _ _ ended ran
  refine ⟨value, count, done, ?_⟩
  rw [run_then (run_check formed), decide_eq_false other]
  exact ran

theorem takes_accept_refused : Takes bound (accept kind >>= next) demand text result := by
  intro position more finish w ended asked few
  obtain ⟨value, count, done, ran⟩ := passed position more finish w ended asked few
  obtain ⟨formed, other⟩ := refuses _ _ _ ended ran
  refine ⟨value, count, done, ?_⟩
  rw [run_then (run_accept_false formed other)]
  exact ran

end Refused

end Parser

end AgentSpeak.Source
