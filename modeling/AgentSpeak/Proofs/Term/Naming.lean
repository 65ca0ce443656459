import AgentSpeak.Term.Variable
import Mathlib.Logic.Function.Basic

/-!
Names of variables. Written names have no marks or are wildcards, and each renaming adds its number
as a mark, so a variable that the next renaming makes differs from every variable so far.

An author writes some of the variables that can come up, and renamings make others: rules are renamed
apart, so are the literals of events, and the results of goals get variables of their own. A renaming can
take up what another one has made. Full names are texts, in which a hash sign stands before each mark;
names that are read have none, so the texts tell the variables apart.
-/

namespace AgentSpeak.Variable

variable {v w : Variable} {m n k : Nat}

theorem toString_injective : Function.Injective (toString : Nat → String) := by
  intro m n same
  have digits : Nat.toDigits 10 m = Nat.toDigits 10 n := by
    rw [← Nat.toList_repr, ← Nat.toList_repr]
    exact congrArg String.toList same
  calc
    m = Nat.ofDigitChars 10 (Nat.toDigits 10 m) 0 := Nat.ofDigitChars_ten_toDigits.symm
    _ = Nat.ofDigitChars 10 (Nat.toDigits 10 n) 0 := by rw [digits]
    _ = n := Nat.ofDigitChars_ten_toDigits

theorem mark_injective (marks : List String) : Function.Injective (mark marks) := by
  intro v w same
  obtain ⟨base, before⟩ := v
  obtain ⟨other, after⟩ := w
  simpa [mark] using same

/-- A variable as it is read: an identifier or a numbered wildcard. -/
def IsWritten (v : Variable) : Prop :=
  v.marks = [] ∧ v.base ≠ "_" ∨ ∃ n, v = wildcard n

/-- A variable as it is read, or as one of the first `n` renamings made it. -/
def Older (n : Nat) (v : Variable) : Prop :=
  v.IsWritten ∨ ∃ w k, IsWritten w ∧ k ≤ n ∧ v = w.mark [toString k]

theorem Older.mono (older : v.Older m) (later : m ≤ n) : v.Older n :=
  older.imp id fun ⟨w, k, written, bound, same⟩ => ⟨w, k, written, Nat.le_trans bound later, same⟩

theorem IsWritten.older_mark (written : v.IsWritten) (n : Nat) : (v.mark [toString n]).Older n :=
  .inr ⟨v, n, written, Nat.le_refl n, rfl⟩

theorem IsWritten.ne_mark (one : v.IsWritten) (other : w.IsWritten) (text : String) :
    v ≠ w.mark [text] := by
  rintro rfl
  rcases one with ⟨bare, -⟩ | ⟨n, wild⟩
  · simp [mark] at bare
  · obtain ⟨base, marks⟩ := w
    obtain ⟨same, bare⟩ : base = "_" ∧ marks = [] := by
      simp only [mark, wildcard, Variable.mk.injEq] at wild
      refine ⟨wild.1, List.length_eq_zero_iff.mp ?_⟩
      simpa using congrArg List.length wild.2
    rcases other with ⟨-, named⟩ | ⟨k, wild⟩
    · exact named same
    · simp [wildcard, bare] at wild

/-- What a renaming makes is new. -/
theorem Older.ne_mark (older : v.Older n) (later : n < k) (written : w.IsWritten) :
    v ≠ w.mark [toString k] := by
  rcases older with written' | ⟨u, j, -, bound, same⟩
  · exact written'.ne_mark written _
  · rw [same]
    intro equal
    have last := congrArg (fun v => v.marks.getLast?) equal
    simp only [mark, List.getLast?_concat, Option.some.injEq] at last
    have := toString_injective last
    omega

/-- No result of a finished goal later than the `k`-th renaming made the variable. -/
def IsSettled (k : Nat) (v : Variable) : Prop :=
  ∀ n : Nat, v.marks.getLast? = some ("c" ++ toString n) → n ≤ k

theorem IsSettled.mono (settled : v.IsSettled m) (later : m ≤ n) : v.IsSettled n :=
  fun k last => Nat.le_trans (settled k last) later

/-- The mark of a renaming of a rule is a number, and no other mark is one. -/
theorem toString_ne {mark : String} {letter : Char} (inside : letter ∈ mark.toList)
    (other : letter.isDigit = false) (n : Nat) : toString n ≠ mark := by
  intro same
  have digits : letter ∈ Nat.toDigits 10 n := by
    rw [← Nat.toList_repr, show n.repr = mark from same]
    exact inside
  have digit := Nat.isDigit_of_mem_toDigits (by decide) (by decide) digits
  exact absurd (other.symm.trans digit) (by decide)

theorem mem_lettered (letter : Char) (text : String) :
    letter ∈ (String.singleton letter ++ text).toList := by
  simp

/-- A mark that is no number makes no name as it is read. -/
theorem IsWritten.ne_lettered (written : v.IsWritten) {mark : String} {letter : Char}
    (inside : letter ∈ mark.toList) (other : letter.isDigit = false) (w : Variable) :
    v ≠ w.mark [mark] := by
  rintro rfl
  rcases written with ⟨bare, -⟩ | ⟨n, wild⟩
  · simp [Variable.mark] at bare
  · have last := congrArg (fun v => v.marks.getLast?) wild
    simp only [Variable.mark, wildcard, List.getLast?_concat, List.getLast?_singleton,
      Option.some.injEq] at last
    exact toString_ne inside other n last.symm

private theorem toString_ne_result (m n : Nat) : toString m ≠ "c" ++ toString n :=
  toString_ne (mem_lettered 'c' (toString n)) (by decide) m

theorem settled_mark_number (v : Variable) (n k : Nat) : (v.mark [toString n]).IsSettled k := by
  intro m last
  rw [mark, List.getLast?_concat, Option.some.injEq] at last
  exact absurd last (toString_ne_result n m)

theorem IsWritten.settled (written : v.IsWritten) (k : Nat) : v.IsSettled k := by
  rcases written with ⟨bare, -⟩ | ⟨n, wild⟩
  · intro m last
    rw [bare] at last
    cases last
  · rw [wild]
    exact settled_mark_number ⟨"_", []⟩ n k

theorem settled_mark_event (v : Variable) (n k : Nat) :
    (v.mark ["e" ++ toString n]).IsSettled k := by
  intro m last
  rw [mark, List.getLast?_concat, Option.some.injEq] at last
  have heads := congrArg (fun text => text.toList.head?) last
  simp at heads

theorem mark_result_settled_iff (v : Variable) (n k : Nat) :
    (v.mark ["c" ++ toString n]).IsSettled k ↔ n ≤ k := by
  constructor
  · intro settled
    exact settled n (by rw [mark, List.getLast?_concat])
  · intro bound m last
    rw [mark, List.getLast?_concat, Option.some.injEq, String.append_right_inj] at last
    rwa [← toString_injective last]

/-- A variable that can have come up by now: one of the source, or one that a renaming has made. The
first `rules` renamings were of rules, which have variables of the source; an agent has made the
first `own` names, for the literals of events and for the results of goals. -/
inductive Made (source : Variable → Prop) (rules own : Nat) : Variable → Prop where
  | given {v : Variable} (known : source v) : Made source rules own v
  | rule {v : Variable} {n : Nat} (known : source v) (bound : n ≤ rules) :
      Made source rules own (v.mark [toString n])
  | event {v : Variable} {n : Nat} (made : Made source rules own v) (bound : n ≤ own) :
      Made source rules own (v.mark ["e" ++ toString n])
  | result {v : Variable} {n : Nat} (made : Made source rules own v) (bound : n ≤ own) :
      Made source rules own (v.hide.mark ["c" ++ toString n])

variable {source : Variable → Prop} {rules own rules' own' : Nat}

theorem Made.mono (made : Made source rules own v) (rulesLater : rules ≤ rules')
    (ownLater : own ≤ own') : Made source rules' own' v := by
  induction made with
  | given known => exact .given known
  | rule known bound => exact .rule known (Nat.le_trans bound rulesLater)
  | event made bound ih => exact .event ih (Nat.le_trans bound ownLater)
  | result made bound ih => exact .result ih (Nat.le_trans bound ownLater)

theorem Made.settled (written : ∀ v, source v → v.IsWritten) (made : Made source rules own v) :
    v.IsSettled own := by
  cases made with
  | given known => exact (written _ known).settled own
  | rule known bound => exact settled_mark_number _ _ own
  | event made bound => exact settled_mark_event _ _ own
  | result made bound => exact (mark_result_settled_iff _ _ own).mpr bound

/-- A renaming of a rule that is still to come makes no variable that has come up. -/
theorem Made.ne_mark (written : ∀ v, source v → v.IsWritten) (made : Made source rules own v)
    (other : source w) (later : rules < n) : v ≠ w.mark [toString n] := by
  have lettered {mark : String} {letter : Char} (u : Variable) (inside : letter ∈ mark.toList)
      (noDigit : letter.isDigit = false) : u.mark [mark] ≠ w.mark [toString n] := by
    intro same
    have last := congrArg (fun v => v.marks.getLast?) same
    simp only [Variable.mark, List.getLast?_concat, Option.some.injEq] at last
    exact toString_ne inside noDigit n last.symm
  cases made with
  | given known => exact (written _ known).ne_mark (written _ other) _
  | rule known bound =>
    exact ((written _ known).older_mark _).ne_mark (Nat.lt_of_le_of_lt bound later) (written _ other)
  | event made bound => exact lettered _ (mem_lettered 'e' _) (by decide)
  | result made bound => exact lettered _ (mem_lettered 'c' _) (by decide)

/-- A variable no part of which has a hash sign in it. -/
def IsPlain (v : Variable) : Prop :=
  ∀ part ∈ v.base :: v.marks, '#' ∉ part.toList

/-- Plain variables are told apart by their full names. -/
theorem IsPlain.eq_of_name (one : v.IsPlain) (other : w.IsPlain) (same : v.name = w.name) :
    v = w := by
  have parts {u : Variable} (plain : u.IsPlain) :
      u.name.toList.splitOn '#' = (u.base :: u.marks).map String.toList := by
    rw [name, String.toList_intercalate]
    refine List.splitOn_intercalate '#' (fun part member => ?_) (by simp)
    obtain ⟨text, inside, rfl⟩ := List.mem_map.mp member
    exact plain text inside
  have equal : (v.base :: v.marks).map String.toList = (w.base :: w.marks).map String.toList := by
    rw [← parts one, ← parts other, same]
  obtain ⟨base, marks⟩ := List.cons.inj <|
    (List.map_inj_right fun _ _ => String.toList_inj.mp).mp equal
  cases v
  cases w
  exact congrArg₂ _ base marks

theorem IsPlain.mark (plain : v.IsPlain) {text : String} (free : '#' ∉ text.toList) :
    (v.mark [text]).IsPlain := by
  intro part member
  rcases List.mem_append.mp (show part ∈ (v.base :: v.marks) ++ [text] from member) with old | new
  · exact plain part old
  · rw [List.mem_singleton.mp new]
    exact free

theorem IsPlain.hide (plain : v.IsPlain) : v.hide.IsPlain :=
  List.forall_mem_cons.mpr ⟨by simp [Variable.hide], plain⟩

theorem plain_toString (n : Nat) : '#' ∉ (toString n).toList :=
  fun member => toString_ne member (by decide) n rfl

/-- A variable as it is read, with no hash sign in its name. -/
def IsRead (v : Variable) : Prop :=
  v.IsWritten ∧ '#' ∉ v.base.toList

theorem IsRead.plain (read : v.IsRead) : v.IsPlain := by
  obtain ⟨⟨bare, -⟩ | ⟨n, rfl⟩, free⟩ := read
  · simpa [IsPlain, bare] using free
  · exact List.forall_mem_cons.mpr ⟨free, by simpa [wildcard] using plain_toString n⟩

theorem Made.plain (made : Made IsRead rules own v) : v.IsPlain := by
  have lettered (letter : Char) (other : '#' ≠ letter) (n : Nat) :
      '#' ∉ (String.singleton letter ++ toString n).toList := by
    simpa [other] using plain_toString n
  induction made with
  | given known => exact known.plain
  | rule known bound => exact known.plain.mark (plain_toString _)
  | event made bound ih => exact ih.mark (lettered 'e' (by decide) _)
  | result made bound ih => exact ih.hide.mark (lettered 'c' (by decide) _)

/-- Nor does it make the full name of one. -/
theorem Made.name_ne_mark (made : Made IsRead rules own v) (other : w.IsRead) (later : rules < n) :
    v.name ≠ (w.mark [toString n]).name := by
  intro same
  have equal := made.plain.eq_of_name (other.plain.mark (plain_toString n)) same
  exact made.ne_mark (fun _ => And.left) other later equal

end AgentSpeak.Variable
