import AgentSpeak.Comparison
import AgentSpeak.Term.Printer
import AgentSpeak.Proofs.Term.Equality
import AgentSpeak.Proofs.Term.Folding
import AgentSpeak.Proofs.Term.Numbering

/-!
Terms with other names for their variables. Different names stay different, so equality, the order
of terms and their arithmetic stay the same, and a fault names the variables by their other names. A
text shows the written part of a name only.
-/

namespace AgentSpeak

variable {π : Variable → Variable}

namespace Term

theorem rename_injective (one : Function.Injective π) : Function.Injective (rename π) := by
  have : Nonempty Variable := ⟨.wildcard 0⟩
  obtain ⟨ρ, back⟩ := one.hasLeftInverse
  have inverse : ∀ term : Term, (term.rename π).rename ρ = term := fun term => by
    rw [rename_rename]
    exact rename_self fun v _ => back v
  exact Function.LeftInverse.injective inverse

theorem canonical_rename (π : Variable → Variable) (term : Term) :
    (term.rename π).canonical = term.canonical.rename π := by
  rw [rename, canonical_bind]
  rfl

theorem beq_rename (one : Function.Injective π) (s t : Term) :
    (s.rename π == t.rename π) = (s == t) := by
  rw [Bool.eq_iff_iff, beq_iff_canonical, beq_iff_canonical, canonical_rename, canonical_rename,
    (rename_injective one).eq_iff]

@[simp] theorem size_rename (π : Variable → Variable) (term : Term) :
    (term.rename π).size = term.size := by
  induction term using structural with
  | atom | number | string | var => simp [size]
  | compound functor arguments ih =>
    have all : ∀ terms : List Term, (∀ term ∈ terms, (term.rename π).size = term.size) →
        sizeAll (terms.map (rename π)) = sizeAll terms := by
      intro terms each
      induction terms with
      | nil => rfl
      | cons term rest ihRest =>
        rw [List.map_cons, sizeAll, sizeAll, each term (by simp),
          ihRest fun other member => each other (by simp [member])]
    rw [rename_compound, size, size, all arguments ih]

@[simp] theorem isWritable_rename (π : Variable → Variable) (term : Term) :
    (term.rename π).isWritable = term.isWritable :=
  isWritable_bind (fun _ => rfl) term

section Texts

variable (written : ∀ v, (π v).base = v.base)

theorem precedence?_rename (π : Variable → Variable) (term : Term) :
    (term.rename π).precedence? = term.precedence? := by
  cases term with
  | compound functor arguments =>
    rw [rename_compound]
    match arguments with
    | [] | [_] | [_, _] | _ :: _ :: _ :: _ => rfl
  | _ => simp [precedence?]

theorem renderCompound_rename (π : Variable → Variable) (functor : String)
    (arguments : List Term) (texts : List String) :
    renderCompound functor (arguments.map (rename π)) texts =
      renderCompound functor arguments texts := by
  have operands : ∀ place operand text,
      renderOperand place (rename π operand) text = renderOperand place operand text := by
    intro place operand text
    rw [renderOperand, renderOperand, precedence?_rename]
  symm
  unfold renderCompound
  split
  next found => simp [found, operands]
  next found => simp [found, operands]
  next noBinary noMinus =>
    split
    next same found =>
      obtain ⟨left, right, pair⟩ := List.length_eq_two.mp (by simpa using congrArg List.length same)
      exact (noBinary left right _ _ _ pair rfl found).elim
    next same found =>
      obtain ⟨operand, single⟩ :=
        List.length_eq_one_iff.mp (by simpa using congrArg List.length same)
      exact (noMinus operand _ single rfl found).elim
    next => rfl

include written in
/-- Variables with the same written names have the same text. -/
theorem render_rename (term : Term) : (term.rename π).render = term.render := by
  have both : ∀ term : Term, (term.rename π).render = term.render ∧
      renderTail (term.rename π) = renderTail term := by
    intro term
    induction term using structural with
    | atom | number | string => simp
    | var v => simp [render, renderTail, Variable.render, written]
    | compound functor arguments ih =>
      have all : renderAll (arguments.map (rename π)) = renderAll arguments := by
        induction arguments with
        | nil => rfl
        | cons first rest ihRest =>
          rw [List.map_cons, renderAll, renderAll, (ih first (by simp)).1,
            ihRest fun other member => ih other (by simp [member])]
      have text := renderCompound_rename π functor arguments (renderAll arguments)
      rw [rename_compound]
      by_cases pair : ∃ head tail, functor = "." ∧ arguments = [head, tail]
      · obtain ⟨head, tail, rfl, rfl⟩ := pair
        simp [render, renderTail, ih]
      · have other : ∀ head tail, functor = "." → arguments = [head, tail] → False :=
          fun head tail dot two => pair ⟨head, tail, dot, two⟩
        have other' : ∀ head tail, functor = "." → arguments.map (rename π) = [head, tail] →
            False := by
          intro head tail dot two
          obtain ⟨first, second, two⟩ :=
            List.length_eq_two.mp (by simpa using congrArg List.length two)
          exact other first second dot two
        rw [render.eq_6 _ _ other, render.eq_6 _ _ other', renderTail.eq_6 _ _ other,
          renderTail.eq_6 _ _ other', all, text]
        exact ⟨rfl, rfl⟩
  exact (both term).1

end Texts

end Term

/-- A fault of a search that names the variables of its terms by other names. -/
def Fault.rename (π : Variable → Variable) : Fault → Fault
  | .unboundInArithmetic v => .unboundInArithmetic (π v)
  | .unboundInComparison v => .unboundInComparison (π v)
  | .notNumber term => .notNumber (term.rename π)
  | .divisionByZero term => .divisionByZero (term.rename π)
  | .tooDeep limit goal => .tooDeep limit (goal.rename π)
  | .notQueryable term => .notQueryable (term.rename π)
  | fault => fault

@[simp] theorem Fault.isWritable_rename (π : Variable → Variable) (fault : Fault) :
    (fault.rename π).isWritable = fault.isWritable := by
  cases fault <;> simp [rename, isWritable]

@[simp] theorem Fault.kind_rename (π : Variable → Variable) (fault : Fault) :
    (fault.rename π).kind = fault.kind := by
  rw [kind, kind, isWritable_rename]
  cases fault <;> rfl

/-- The message of a fault shows the written part of names only. -/
theorem Fault.message_rename (written : ∀ v, (π v).base = v.base) (fault : Fault) :
    (fault.rename π).message = fault.message := by
  have text := Term.render_rename written
  rw [message, message, isWritable_rename]
  refine if_congr Iff.rfl ?_ rfl
  cases fault with
  | unboundInArithmetic v | unboundInComparison v =>
    exact congrArg (fun name => _ ++ name ++ _) (written v)
  | notNumber term | divisionByZero term | tooDeep limit term =>
    exact congrArg (fun text => _ ++ text) (text term)
  | notQueryable term => exact congrArg (fun text => _ ++ text ++ _) (text term)
  | _ => rfl

/-- A result with other names in its value or its fault. -/
def renamed {α β : Type} (π : Variable → Variable) (value : α → β) :
    Except Fault α → Except Fault β
  | .ok result => .ok (value result)
  | .error fault => .error (fault.rename π)

section Results

variable {α β γ δ : Type} {value : α → β} {value' : γ → δ}

theorem renamed_bind {f : α → Except Fault γ} {g : β → Except Fault δ}
    (each : ∀ result, g (value result) = renamed π value' (f result)) (result : Except Fault α) :
    (renamed π value result >>= g) = renamed π value' (result >>= f) := by
  cases result with
  | error fault => rfl
  | ok result => exact each result

theorem renamed_map {f : α → γ} {g : β → δ} (each : ∀ result, g (value result) = value' (f result))
    (result : Except Fault α) :
    (renamed π value result).map g = renamed π value' (result.map f) := by
  cases result with
  | error fault => rfl
  | ok result => exact congrArg Except.ok (each result)

end Results

theorem Operator.apply_rename (π : Variable → Variable) (operator : Operator) (term : Term)
    (x y : Number) :
    operator.apply (term.rename π) x y = renamed π id (operator.apply term x y) := by
  have total : ∀ result : Except NumberFault Number,
      result.mapError Fault.number = renamed π id (result.mapError Fault.number) := by
    rintro (fault | value) <;> rfl
  have divided : ∀ result : Except NumberFault Number,
      (if y.isZero then .error (.divisionByZero (term.rename π))
        else result.mapError Fault.number) =
        renamed π id (if y.isZero then .error (.divisionByZero term)
          else result.mapError Fault.number) := by
    intro result
    split
    · rfl
    · exact total result
  cases operator with
  | add | sub | mul | power => exact total _
  | quotient | floorQuotient | modulo => exact divided _

namespace Term

theorem compute_rename (π : Variable → Variable) (term : Term) :
    (term.rename π).compute = renamed π id term.compute := by
  induction term using structural with
  | atom | number | string | var => simp [compute, renamed, Fault.rename]
  | compound functor arguments ih =>
    have fault : (.error (.notNumber (.compound functor (arguments.map (rename π)))) :
        Except Fault Number) =
          renamed π id (.error (.notNumber (.compound functor arguments))) := by
      rw [renamed, Fault.rename, rename_compound]
    rw [rename_compound]
    rcases arguments with - | ⟨left, - | ⟨right, - | ⟨third, others⟩⟩⟩
    case cons.nil =>
      rw [List.map_cons, List.map_nil, compute, compute, ih left (by simp)]
      split
      · refine renamed_map (fun value => ?_) _
        rfl
      · exact fault
    case cons.cons.nil =>
      rw [List.map_cons, List.map_cons, List.map_nil, compute, compute, ih left (by simp),
        ih right (by simp)]
      split
      · refine renamed_bind (fun x => ?_) _
        refine renamed_bind (fun y => ?_) _
        rw [← Operator.apply_rename, rename_compound]
        rfl
      · exact fault
    all_goals exact fault

@[simp] theorem isNumeric_rename (π : Variable → Variable) (term : Term) :
    (term.rename π).isNumeric = term.isNumeric := by
  induction term using structural with
  | atom | number | string => simp
  | var v => simp [isNumeric]
  | compound functor arguments ih =>
    rw [rename_compound]
    rcases arguments with - | ⟨left, - | ⟨right, - | ⟨third, others⟩⟩⟩ <;> simp [isNumeric, ih]

theorem fold_rename (π : Variable → Variable) (term : Term) :
    (term.rename π).fold = renamed π (rename π) term.fold := by
  induction term using structural with
  | atom | number | string | var => simp [fold, renamed]
  | compound functor arguments ih =>
    have all : foldAll (arguments.map (rename π)) =
        renamed π (List.map (rename π)) (foldAll arguments) := by
      induction arguments with
      | nil => rfl
      | cons first rest ihRest =>
        rw [List.map_cons, foldAll, foldAll, ih first (by simp),
          ihRest fun other member => ih other (by simp [member])]
        refine renamed_bind (fun folded => ?_) _
        refine renamed_bind (fun others => ?_) _
        rfl
    have numeric := isNumeric_rename π (.compound functor arguments)
    have computed := compute_rename π (.compound functor arguments)
    rw [rename_compound] at numeric computed ⊢
    rw [fold_compound, fold_compound, numeric, computed, all]
    split
    · exact renamed_map (fun value => (rename_number π value).symm) _
    · exact renamed_map (fun results => (rename_compound π functor results).symm) _

/-- There is no variable in a key, so only the fault is renamed. -/
theorem sortKey_rename (π : Variable → Variable) (term : Term) :
    (term.rename π).sortKey = renamed π id term.sortKey := by
  induction term using structural with
  | atom | number | string | var => simp [sortKey, renamed, Fault.rename]
  | compound functor arguments ih =>
    have all : sortKeys (arguments.map (rename π)) = renamed π id (sortKeys arguments) := by
      induction arguments with
      | nil => rfl
      | cons first rest ihRest =>
        rw [List.map_cons, sortKeys, sortKeys, ih first (by simp),
          ihRest fun other member => ih other (by simp [member])]
        refine renamed_bind (fun key => ?_) _
        refine renamed_bind (fun keys => ?_) _
        rfl
    rw [rename_compound, sortKey, sortKey, all, List.length_map]
    refine renamed_map (fun keys => ?_) _
    rfl

end Term

theorem Relation.between_rename (one : Function.Injective π) (relation : Relation)
    (left right : Term) :
    relation.between (left.rename π) (right.rename π) =
      renamed π id (relation.between left right) := by
  unfold between
  rw [Term.beq_rename one, Term.sortKey_rename, Term.sortKey_rename]
  cases relation with
  | equal | notEqual => rfl
  | unify | less | lessEqual | greater | greaterEqual | other =>
    refine renamed_bind (fun first => ?_) _
    refine renamed_bind (fun second => ?_) _
    rfl

end AgentSpeak
