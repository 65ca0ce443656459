import AgentSpeak.Arithmetic
import AgentSpeak.Proofs.Fault
import AgentSpeak.Proofs.Substitution.Traversal
import Mathlib.Data.List.Forall2

/-!
Evaluation and folding of arithmetic. Following acyclic bindings at each operand gives the value of the
term with all its variables replaced. A term has a value exactly if it folds to this number, and a
folded term counts in arithmetic as the term itself does: whatever is put for the variables of both,
they have the same value and the same folded form, if they have one.
-/

namespace AgentSpeak

/-- The term that messages show does not decide whether there is a value. -/
theorem Operator.toOption_apply (operator : Operator) (s t : Term) (x y : Number) :
    (operator.apply s x y).toOption = (operator.apply t x y).toOption := by
  cases operator with
  | add | sub | mul | power => rfl
  | quotient | floorQuotient | modulo =>
    simp only [Operator.apply]
    split <;> rfl

/-- The value of a term whose variables have all been replaced. -/
def Term.compute : Term → Except Fault Number
  | .number value => .ok value
  | .var v => .error (.unboundInArithmetic v)
  | .compound functor [operand] =>
      if functor = "-" then (compute operand).map Number.neg
      else .error (.notNumber (.compound functor [operand]))
  | .compound functor [left, right] =>
      match Operator.ofFunctor? functor with
      | some operator => do
          let x ← compute left
          let y ← compute right
          operator.apply (.compound functor [left, right]) x y
      | none => .error (.notNumber (.compound functor [left, right]))
  | term => .error (.notNumber term)

namespace Substitution

variable {θ : Substitution} {value : Number}

/-- Following acyclic bindings operand by operand comes to the same as replacing all variables
first. -/
theorem Acyclic.evaluateWithin_eq (acyclic : θ.Acyclic) {depth : Nat} {term : Term}
    (enough : (θ.apply term).size ≤ depth) :
    θ.evaluateWithin depth term = (θ.apply term).compute := by
  induction depth generalizing term with
  | zero => exact absurd (Term.size_pos (θ.apply term)) (Nat.not_lt.mpr enough)
  | succ depth ih =>
    have walks := acyclic.walks term
    rw [← walks.apply_eq acyclic (.refl θ)] at enough ⊢
    rw [evaluateWithin]
    cases walked : θ.walk term with
    | atom name | number value | string value => simp [Term.compute]
    | var v => rw [apply_unbound (walked ▸ walks).unbound_of_var, Term.compute]
    | compound functor arguments =>
      rw [walked, apply_compound] at enough
      have operands (argument : Term) (member : argument ∈ arguments) :
          θ.evaluateWithin depth argument = (θ.apply argument).compute :=
        ih (Nat.le_of_lt_succ (Nat.lt_of_lt_of_le
          (Term.size_lt_compound functor (List.mem_map_of_mem member)) enough))
      rw [apply_compound]
      match arguments with
      | [] | _ :: _ :: _ :: _ => simp [Term.compute]
      | [operand] => simp [Term.compute, operands operand (by simp)]
      | [left, right] =>
        cases named : Operator.ofFunctor? functor <;>
          simp [named, Term.compute, operands left (by simp), operands right (by simp)]

/-- The value of a term under acyclic bindings is that of the term with its variables replaced. -/
theorem Acyclic.evaluate_eq (acyclic : θ.Acyclic) (term : Term) :
    θ.evaluate term = (θ.apply term).compute :=
  acyclic.evaluateWithin_eq (Nat.le_refl _)

theorem evaluate_empty (term : Term) : empty.evaluate term = term.compute := by
  rw [acyclic_empty.evaluate_eq, apply_eq_bind, Term.bind_self fun v _ => apply_unbound rfl]

/-- What has a value within some depth has the same one within every greater depth. -/
theorem evaluateWithin_deeper {depth deeper : Nat} {term : Term}
    (done : θ.evaluateWithin depth term = .ok value) (more : depth ≤ deeper) :
    θ.evaluateWithin deeper term = .ok value := by
  induction depth generalizing deeper term value with
  | zero => cases done
  | succ depth ih =>
    obtain ⟨deeper, rfl⟩ : ∃ rest, deeper = rest + 1 := ⟨deeper - 1, by omega⟩
    have more := Nat.le_of_succ_le_succ more
    rw [evaluateWithin] at done ⊢
    cases walked : θ.walk term with
    | atom name | string text | var v => rw [walked] at done; cases done
    | number own => rwa [walked] at done
    | compound functor arguments =>
      rw [walked] at done
      match arguments with
      | [] | _ :: _ :: _ :: _ => cases done
      | [operand] =>
        simp only at done ⊢
        split at done
        next minus =>
          obtain ⟨x, first, rfl⟩ := map_eq_ok_iff.mp done
          rw [if_pos minus, ih first more]
          rfl
        next => cases done
      | [left, right] =>
        simp only at done ⊢
        split at done
        next operator found =>
          obtain ⟨x, first, rest⟩ := bind_eq_ok_iff.mp done
          obtain ⟨y, second, applied⟩ := bind_eq_ok_iff.mp rest
          rw [ih first more, ih second more]
          exact applied
        next => cases done

end Substitution

namespace Term

variable {allowed : Variable → Prop} {term result : Term} {functor : String}
  {xs ys terms results : List Term}

theorem isGround_of_isNumeric (numeric : term.isNumeric = true) : term.isGround = true := by
  induction term using structural with
  | atom name | string value | var v => cases numeric
  | number value => rfl
  | compound functor arguments ih =>
    rw [isGround, isGroundAll_iff]
    rcases arguments with _ | ⟨left, _ | ⟨right, _ | _⟩⟩
    · cases numeric
    · rw [isNumeric, Bool.and_eq_true] at numeric
      exact List.forall_mem_singleton.mpr (ih left (by simp) numeric.2)
    · rw [isNumeric, Bool.and_eq_true, Bool.and_eq_true] at numeric
      refine List.forall_mem_cons.mpr ⟨ih left (by simp) numeric.1.2, ?_⟩
      exact List.forall_mem_singleton.mpr (ih right (by simp) numeric.2)
    · cases numeric

/-- Only numbers and expressions of numbers have a value. -/
theorem isNumeric_of_compute {value : Number} (done : term.compute = .ok value) :
    term.isNumeric = true := by
  induction term using structural generalizing value with
  | atom name | string text | var v => cases done
  | number own => rfl
  | compound functor arguments ih =>
    rcases arguments with _ | ⟨left, _ | ⟨right, _ | _⟩⟩
    · cases done
    · rw [compute] at done
      split at done
      next minus =>
        obtain ⟨x, first, -⟩ := map_eq_ok_iff.mp done
        simp [isNumeric, minus, ih left (by simp) first]
      next => cases done
    · rw [compute] at done
      split at done
      next operator found =>
        obtain ⟨x, first, rest⟩ := bind_eq_ok_iff.mp done
        obtain ⟨y, second, -⟩ := bind_eq_ok_iff.mp rest
        simp [isNumeric, found, ih left (by simp) first, ih right (by simp) second]
      next => cases done
    · cases done

theorem fold_compound (functor : String) (arguments : List Term) :
    fold (.compound functor arguments) =
      if isNumeric (.compound functor arguments) then
        (compute (.compound functor arguments)).map number
      else (foldAll arguments).map (compound functor) := by
  rw [fold, Substitution.evaluate_empty]

/-- A numeric term is folded into its value. -/
theorem fold_of_isNumeric (numeric : term.isNumeric = true) :
    term.fold = term.compute.map number := by
  cases term with
  | atom name | string value | var v => cases numeric
  | number value =>
    rw [fold, compute]
    rfl
  | compound functor arguments => rw [fold_compound, if_pos numeric]

/-- What folds to a number has this value. -/
theorem fold_eq_number_iff {value : Number} :
    term.fold = .ok (.number value) ↔ term.compute = .ok value := by
  have numbers (numeric : term.isNumeric = true) :
      term.fold = .ok (.number value) ↔ term.compute = .ok value := by
    rw [fold_of_isNumeric numeric, map_eq_ok_iff]
    simp
  constructor
  · intro done
    cases term with
    | atom name | string text | var v => cases done
    | number own => exact (numbers rfl).mp done
    | compound functor arguments =>
      by_cases numeric : isNumeric (.compound functor arguments) = true
      · exact (numbers numeric).mp done
      · rw [fold_compound, if_neg numeric] at done
        obtain ⟨_, -, same⟩ := map_eq_ok_iff.mp done
        cases same
  · exact fun done => (numbers (isNumeric_of_compute done)).mpr done

theorem eq_var_of_fold {v : Variable} (done : term.fold = .ok (.var v)) : term = .var v := by
  cases term with
  | atom name | number value | string value => cases done
  | var w => exact Except.ok.inj done
  | compound functor arguments =>
    rw [fold_compound] at done
    split at done <;> obtain ⟨_, -, same⟩ := map_eq_ok_iff.mp done <;> cases same

/-- Each term of a list is folded. -/
theorem foldAll_eq_ok_iff :
    foldAll terms = .ok results ↔ List.Forall₂ (fun t r => t.fold = .ok r) terms results := by
  induction terms generalizing results with
  | nil =>
    rw [List.forall₂_nil_left_iff, foldAll]
    exact ⟨fun done => (Except.ok.inj done).symm, fun none => none ▸ rfl⟩
  | cons term rest ih =>
    rw [foldAll]
    constructor
    · intro done
      obtain ⟨folded, first, tailed⟩ := bind_eq_ok_iff.mp done
      obtain ⟨tail, others, same⟩ := bind_eq_ok_iff.mp tailed
      cases same
      exact .cons first (ih.mp others)
    · rintro (_ | ⟨first, others⟩)
      rw [first, ih.mpr others]
      rfl

private theorem foldAll_over {terms results : List Term}
    (each : ∀ term ∈ terms, ∀ result, term.fold = .ok result → result.Over allowed)
    (done : foldAll terms = .ok results) : ∀ result ∈ results, result.Over allowed := by
  induction terms generalizing results with
  | nil =>
    cases done
    simp
  | cons term rest ih =>
    rw [foldAll] at done
    obtain ⟨folded, first, tailed⟩ := bind_eq_ok_iff.mp done
    obtain ⟨tail, others, same⟩ := bind_eq_ok_iff.mp tailed
    cases same
    intro result member
    rcases List.mem_cons.mp member with here | later
    · exact here ▸ each term List.mem_cons_self folded first
    · exact ih (fun other inside => each other (List.mem_cons_of_mem _ inside)) others result later

/-- Computing takes variables away and adds none. -/
theorem Over.fold (ranges : term.Over allowed) (done : term.fold = .ok result) :
    result.Over allowed := by
  induction term using structural generalizing result with
  | atom name | number value | string value | var v =>
    rw [Term.fold] at done
    cases done
    exact ranges
  | compound functor arguments ih =>
    rw [fold_compound] at done
    split at done
    next =>
      obtain ⟨number, -, rfl⟩ := map_eq_ok_iff.mp done
      exact over_of_isGround rfl
    next =>
      obtain ⟨results, parts, rfl⟩ := map_eq_ok_iff.mp done
      have each := foldAll_over (fun argument member folded => ih argument member
        (hereditary_over allowed functor arguments ranges argument member)) parts
      intro v occurs
      obtain ⟨folded, member, inside⟩ := List.mem_flatMap.mp (vars_compound _ _ ▸ occurs)
      exact each folded member v inside

/-- Terms that count alike in arithmetic: both are numeric or none is, and they have the same value
and the same folded form, if they have one. -/
structure Alike (s t : Term) : Prop where
  numeric : s.isNumeric = t.isNumeric
  value : s.compute.toOption = t.compute.toOption
  folded : s.fold.toOption = t.fold.toOption

theorem Alike.refl (term : Term) : Alike term term :=
  ⟨rfl, rfl, rfl⟩

private theorem toOption_foldAll (each : List.Forall₂ Alike xs ys) :
    (foldAll xs).toOption = (foldAll ys).toOption := by
  induction each with
  | nil => rfl
  | cons first _ ih =>
    simp only [foldAll, toOption_bind]
    rw [first.folded]
    simp only [ih]

/-- Arithmetic sees of a compound term what it sees of the arguments. -/
theorem Alike.compound (each : List.Forall₂ Alike xs ys) :
    Alike (.compound functor xs) (.compound functor ys) := by
  have parts := toOption_foldAll each
  have numeric : isNumeric (.compound functor xs) = isNumeric (.compound functor ys) := by
    cases each with
    | nil => rfl
    | cons first rest =>
      cases rest with
      | nil => simp only [isNumeric, first.numeric]
      | cons second rest =>
        cases rest with
        | nil => simp only [isNumeric, first.numeric, second.numeric]
        | cons => rfl
  have value : (compute (.compound functor xs)).toOption =
      (compute (.compound functor ys)).toOption := by
    cases each with
    | nil => rfl
    | cons first rest =>
      cases rest with
      | nil =>
        simp only [compute]
        split
        next => rw [toOption_map, toOption_map, first.value]
        next => rfl
      | cons second rest =>
        cases rest with
        | nil =>
          simp only [compute]
          split
          next operator _ =>
            simp only [toOption_bind]
            rw [first.value, second.value]
            refine congrArg _ (funext fun x => congrArg _ (funext fun y => ?_))
            exact operator.toOption_apply _ _ x y
          next => rfl
        | cons => rfl
  refine ⟨numeric, value, ?_⟩
  rw [fold_compound, fold_compound, numeric]
  split
  next => rw [toOption_map, toOption_map, value]
  next => rw [toOption_map, toOption_map, parts]

/-- A term and its folded form count alike, whatever is put for their variables. -/
theorem alike_bind (done : term.fold = .ok result) (σ : Variable → Term) :
    Alike (term.bind σ) (result.bind σ) := by
  induction term using structural generalizing result with
  | atom name | number value | string value | var v =>
    rw [fold] at done
    cases done
    exact .refl _
  | compound functor arguments ih =>
    by_cases numeric : isNumeric (.compound functor arguments) = true
    · -- A numeric term has no variables, so its value takes its place at once.
      have closed := bind_of_isGround (isGround_of_isNumeric numeric) σ
      rw [fold_of_isNumeric numeric] at done
      obtain ⟨value, computed, rfl⟩ := map_eq_ok_iff.mp done
      rw [closed, bind_number]
      refine ⟨numeric, ?_, ?_⟩
      · rw [computed, compute]
      · rw [fold_of_isNumeric numeric, computed, fold]
        rfl
    · rw [fold_compound, if_neg numeric] at done
      obtain ⟨parts, folded, rfl⟩ := map_eq_ok_iff.mp done
      have alike (argument : Term) (member : argument ∈ arguments) (result : Term)
          (done : argument.fold = .ok result) : Alike (argument.bind σ) (result.bind σ) :=
        ih argument member done
      have each := (List.forall₂_and_left arguments parts).mpr
        ⟨alike, foldAll_eq_ok_iff.mp folded⟩
      rw [bind_compound, bind_compound]
      refine .compound (List.forall₂_map_left_iff.mpr (List.forall₂_map_right_iff.mpr ?_))
      exact each.imp fun argument result both => both.1 result both.2

/-- A folded term has nothing left to fold. -/
theorem fold_fold (done : term.fold = .ok result) : result.fold = .ok result := by
  have alike := (alike_bind done var).folded
  rw [bind_self fun _ _ => rfl, bind_self fun _ _ => rfl, done] at alike
  exact toOption_eq_some_iff.mp alike.symm

mutual

/-- Whether a part of a term is an expression of numbers. -/
def computes : Term → Bool
  | .compound functor arguments =>
      isNumeric (.compound functor arguments) || computesAny arguments
  | _ => false

/-- Whether a part of one of some terms is an expression of numbers. -/
def computesAny : List Term → Bool
  | [] => false
  | term :: rest => computes term || computesAny rest

end

private theorem foldAll_eq_self_iff {terms : List Term}
    (each : ∀ term ∈ terms, term.fold = .ok term ↔ term.computes = false) :
    foldAll terms = .ok terms ↔ computesAny terms = false := by
  induction terms with
  | nil => simp [foldAll, computesAny]
  | cons term rest ih =>
    obtain ⟨first, others⟩ := List.forall_mem_cons.mp each
    rw [foldAll, computesAny, Bool.or_eq_false_iff, ← first, ← ih others]
    constructor
    · intro done
      obtain ⟨folded, one, tailed⟩ := bind_eq_ok_iff.mp done
      obtain ⟨tail, two, same⟩ := bind_eq_ok_iff.mp tailed
      cases same
      exact ⟨one, two⟩
    · rintro ⟨one, two⟩
      rw [one, two]
      rfl

/-- Folding changes nothing exactly if there is nothing to compute. -/
theorem fold_eq_self_iff (term : Term) : term.fold = .ok term ↔ term.computes = false := by
  induction term using structural with
  | atom name | number value | string value | var v => simp [fold, computes]
  | compound functor arguments ih =>
    rw [fold_compound, computes, Bool.or_eq_false_iff, ← foldAll_eq_self_iff ih]
    split
    next numeric =>
      simp only [numeric, Bool.true_eq_false, false_and, iff_false]
      intro done
      obtain ⟨_, -, same⟩ := map_eq_ok_iff.mp done
      cases same
    next plain =>
      simp only [Bool.not_eq_true] at plain
      constructor
      · intro done
        obtain ⟨parts, found, same⟩ := map_eq_ok_iff.mp done
        cases same
        exact ⟨plain, found⟩
      · rintro ⟨-, found⟩
        rw [found]
        rfl

end Term

end AgentSpeak
