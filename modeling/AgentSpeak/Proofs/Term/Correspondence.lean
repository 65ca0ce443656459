import AgentSpeak.Proofs.Term.Naming
import AgentSpeak.Proofs.Term.Renaming
import Mathlib.Data.Finset.Preimage
import Mathlib.Data.Fintype.EquivFin

/-!
Correspondences between the variables of two runs. Each variable that the first run knows has one in
the second run, different ones for different variables. Renamings make new variables on both sides,
which are put into a correspondence as they come.
-/

namespace AgentSpeak

namespace Variable

/-- A map that keeps some variables apart can be changed elsewhere to keep all variables apart. It
can then move every other variable, and keep its written name. -/
theorem exists_extension (f : Variable → Variable) (vs : List Variable)
    (apart : ∀ v ∈ vs, ∀ w ∈ vs, f v = f w → v = w) :
    ∃ π : Variable → Variable, Function.Injective π ∧ (∀ v ∈ vs, π v = f v) ∧
      ∀ v ∉ vs, π v ≠ v ∧ (π v).base = v.base := by
  let taken := ((vs.map f).flatMap Variable.marks).toFinset
  obtain ⟨n, fresh⟩ := Infinite.exists_notMem_finset
    (taken.preimage (toString : Nat → String) toString_injective.injOn)
  have unused (v w : Variable) (member : v ∈ vs) : f v ≠ w.mark [toString n] := by
    intro same
    refine fresh (Finset.mem_preimage.mpr (List.mem_toFinset.mpr (List.mem_flatMap.mpr
      ⟨f v, List.mem_map_of_mem member, ?_⟩)))
    rw [same]
    simp [mark]
  refine ⟨fun v => if v ∈ vs then f v else v.mark [toString n], ?_, ?_, ?_⟩
  · intro v w same
    dsimp only at same
    split at same
    next known =>
      split at same
      next known' => exact apart v known w known' same
      next => exact absurd same (unused v w known)
    next =>
      split at same
      next known' => exact absurd same.symm (unused w v known')
      next => exact mark_injective [toString n] same
  · exact fun v member => if_pos member
  · intro v absent
    dsimp only
    rw [if_neg absent]
    refine ⟨fun same => ?_, rfl⟩
    simpa [mark] using congrArg Variable.marks same

/-- No renaming of a rule later than the `n`-th one makes the variable. -/
def Predates (n : Nat) (v : Variable) : Prop :=
  ∀ w k, IsWritten w → n < k → v ≠ w.mark [toString k]

variable {v w : Variable} {m n k : Nat}

theorem Predates.mono (predates : v.Predates m) (later : m ≤ n) : v.Predates n :=
  fun w k written after => predates w k written (Nat.lt_of_le_of_lt later after)

theorem IsWritten.predates (written : v.IsWritten) (n : Nat) : v.Predates n :=
  fun _ k other _ => written.ne_mark other (toString k)

theorem IsWritten.predates_mark (written : v.IsWritten) (n : Nat) :
    (v.mark [toString n]).Predates n :=
  fun _ _ other later => (written.older_mark n).ne_mark later other

/-- A mark that is no number is not one that a renaming of a rule makes. -/
theorem predates_mark {mark : String} {letter : Char} (inside : letter ∈ mark.toList)
    (other : letter.isDigit = false) (v : Variable) (n : Nat) : (v.mark [mark]).Predates n := by
  intro w k _ _ same
  have last := congrArg (fun v => v.marks.getLast?) same
  simp only [Variable.mark, List.getLast?_concat, Option.some.injEq] at last
  exact toString_ne inside other k last.symm

end Variable

/-- Other names for some variables, different ones for different variables. If texts matter, then
the written part of a name stays. -/
structure Correspondence (texts : Prop) where
  knows : Variable → Prop
  name : Variable → Variable
  apart : ∀ {v w}, knows v → knows w → name v = name w → v = w
  base : texts → ∀ {v}, knows v → (name v).base = v.base

namespace Correspondence

variable {texts : Prop} {first second third : Correspondence texts} {v : Variable}

/-- On finitely many variables a correspondence is one of all variables. -/
theorem exists_total (names : Correspondence texts) (vs : List Variable)
    (known : ∀ v ∈ vs, names.knows v) :
    ∃ π : Variable → Variable, Function.Injective π ∧ (∀ v ∈ vs, π v = names.name v) ∧
      (texts → ∀ v, (π v).base = v.base) := by
  obtain ⟨π, one, own, others⟩ := Variable.exists_extension names.name vs
    fun v member w member' => names.apart (known v member) (known w member')
  refine ⟨π, one, own, fun shown v => ?_⟩
  by_cases member : v ∈ vs
  · rw [own v member]
    exact names.base shown (known v member)
  · exact (others v member).2

/-- Properties of the variables on both sides. -/
def Both (names : Correspondence texts) (own other : Variable → Prop) : Prop :=
  ∀ v, names.knows v → own v ∧ other (names.name v)

theorem Both.mono {names : Correspondence texts} {own other own' other' : Variable → Prop}
    (both : names.Both own other) (left : ∀ v, own v → own' v) (right : ∀ v, other v → other' v) :
    names.Both own' other' :=
  fun v known => (both v known).imp (left v) (right _)

/-- The later correspondence knows more variables. -/
structure Extends (later earlier : Correspondence texts) : Prop where
  knows : ∀ {v}, earlier.knows v → later.knows v
  name : ∀ {v}, earlier.knows v → later.name v = earlier.name v

theorem Extends.refl (names : Correspondence texts) : names.Extends names :=
  ⟨id, fun _ => rfl⟩

theorem Extends.trans (one : third.Extends second) (two : second.Extends first) :
    third.Extends first :=
  ⟨fun known => one.knows (two.knows known),
    fun known => (one.name (two.knows known)).trans (two.name known)⟩

/-- No variable has another name. -/
def same (texts : Prop) (knows : Variable → Prop) : Correspondence texts :=
  ⟨knows, id, fun _ _ equal => equal, fun _ _ _ => rfl⟩

/-- What two runs make of the variables of a source. -/
structure Copying (texts : Prop) where
  left : Variable → Variable
  right : Variable → Variable
  left_injective : Function.Injective left
  right_injective : Function.Injective right
  base : texts → ∀ {v w : Variable}, w.base = v.base → (right w).base = (left v).base

variable {names source : Correspondence texts} {copying : Copying texts}

/-- The copies of a source's variables are new on both sides. -/
structure Fresh (names source : Correspondence texts) (copying : Copying texts) : Prop where
  left : ∀ {v w}, names.knows v → source.knows w → v ≠ copying.left w
  right : ∀ {v w}, names.knows v → source.knows w → names.name v ≠ copying.right (source.name w)

open Classical in
/-- A correspondence that knows the copies of a source's variables as well. -/
noncomputable def graft (names source : Correspondence texts) (copying : Copying texts)
    (fresh : Fresh names source copying) : Correspondence texts where
  knows v := names.knows v ∨ ∃ w, source.knows w ∧ v = copying.left w
  name v :=
    if copy : ∃ w, source.knows w ∧ v = copying.left w then
      copying.right (source.name copy.choose)
    else names.name v
  apart {v w} known known' same := by
    split at same
    next copy =>
      obtain ⟨own, left⟩ := copy.choose_spec
      split at same
      next copy' =>
        obtain ⟨own', left'⟩ := copy'.choose_spec
        rw [left, left', source.apart own own' (copying.right_injective same)]
      next old => exact absurd same.symm (fresh.right (known'.resolve_right old) own)
    next old =>
      split at same
      next copy' => exact absurd same (fresh.right (known.resolve_right old) copy'.choose_spec.1)
      next old' => exact names.apart (known.resolve_right old) (known'.resolve_right old') same
  base shown {v} known := by
    split
    next copy =>
      obtain ⟨own, left⟩ := copy.choose_spec
      rw [copying.base shown (source.base shown own), ← left]
    next old => exact names.base shown (known.resolve_right old)

theorem graft_extends (fresh : Fresh names source copying) :
    (names.graft source copying fresh).Extends names := by
  refine ⟨.inl, fun {v} known => dif_neg ?_⟩
  rintro ⟨w, own, left⟩
  exact fresh.left known own left

theorem graft_knows (fresh : Fresh names source copying) (own : source.knows v) :
    (names.graft source copying fresh).knows (copying.left v) :=
  .inr ⟨v, own, rfl⟩

theorem graft_name (fresh : Fresh names source copying) (own : source.knows v) :
    (names.graft source copying fresh).name (copying.left v) =
      copying.right (source.name v) := by
  have copy : ∃ w, source.knows w ∧ copying.left v = copying.left w := ⟨v, own, rfl⟩
  have same := copying.left_injective copy.choose_spec.2
  refine (dif_pos copy).trans ?_
  rw [← same]

/-- What a grafted correspondence knows it knew before or is a copy. -/
theorem graft_cases (fresh : Fresh names source copying)
    (known : (names.graft source copying fresh).knows v) :
    (names.knows v ∧ (names.graft source copying fresh).name v = names.name v) ∨
      ∃ w, source.knows w ∧ v = copying.left w ∧
        (names.graft source copying fresh).name v = copying.right (source.name w) := by
  rcases known with old | ⟨w, own, rfl⟩
  · exact .inl ⟨old, (graft_extends fresh).name old⟩
  · exact .inr ⟨w, own, rfl, graft_name fresh own⟩

/-- What all variables had and all copies have is kept. -/
theorem Both.graft {own other : Variable → Prop} (old : names.Both own other)
    (new : ∀ w, source.knows w → own (copying.left w) ∧ other (copying.right (source.name w)))
    (fresh : Fresh names source copying) : (names.graft source copying fresh).Both own other := by
  intro v known
  rcases graft_cases fresh known with ⟨before, same⟩ | ⟨w, copied, rfl, same⟩
  · rw [same]
    exact old v before
  · rw [same]
    exact new w copied

theorem over_graft (fresh : Fresh names source copying) {t : Term} (own : t.Over source.knows) :
    (t.rename copying.left).Over (names.graft source copying fresh).knows :=
  Term.over_bind fun v member => Term.over_var.mpr (graft_knows fresh (own v member))

/-- A copied term corresponds to the copy of the term that the source has for it. -/
theorem rename_graft (fresh : Fresh names source copying) {t : Term} (own : t.Over source.knows) :
    (t.rename copying.left).rename (names.graft source copying fresh).name =
      (t.rename source.name).rename copying.right := by
  rw [Term.rename_rename, Term.rename_rename]
  exact Term.rename_congr fun v member => graft_name fresh (own v member)

/-- The marks that renamings on both sides add. -/
def marking (texts : Prop) (mark mark' : String) : Copying texts where
  left := Variable.mark [mark]
  right := Variable.mark [mark']
  left_injective := Variable.mark_injective _
  right_injective := Variable.mark_injective _
  base _ _ _ same := same

end Correspondence

end AgentSpeak
