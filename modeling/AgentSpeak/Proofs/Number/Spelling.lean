import AgentSpeak.Number.Arithmetic
import AgentSpeak.Number.Basic
import AgentSpeak.Number.Reader
import AgentSpeak.Proofs.Source.Tidy

namespace AgentSpeak

open Source (Lexeme Tidy Neat Kind)

/-- One digit or more. -/
structure IsDigits (text : List Char) : Prop where
  some : text ≠ []
  each : ∀ c ∈ text, c.isDigit = true

/-- A point with digits, or nothing. -/
inductive IsFraction : List Char → Prop where
  | none : IsFraction []
  | digits (text : List Char) (digits : IsDigits text) : IsFraction ('.' :: text)

/-- The mark of an exponent with a sign and digits, or nothing. -/
inductive IsExponent : List Char → Prop where
  | none : IsExponent []
  | plus (text : List Char) (digits : IsDigits text) : IsExponent ('e' :: '+' :: text)
  | minus (text : List Char) (digits : IsDigits text) : IsExponent ('e' :: '-' :: text)

/-- The text of a number without a sign. -/
inductive IsNumberText : List Char → Prop where
  | parts (whole fraction exponent : List Char) (digits : IsDigits whole)
      (point : IsFraction fraction) (mark : IsExponent exponent) :
      IsNumberText (whole ++ fraction ++ exponent)

namespace IsDigits

variable {text more : List Char}

theorem taken (digits : IsDigits text) (stops : ∀ c ∈ more.head?, Text.isDigit c = false) :
    (text ++ more).takeWhile Text.isDigit = text ∧
      (text ++ more).dropWhile Text.isDigit = more := by
  have all : ∀ c ∈ text, Text.isDigit c = true := fun c member =>
    Text.isDigit_of_isDigit (digits.each c member)
  obtain ⟨taken, dropped⟩ :=
    Lexeme.takeWhile_stops (.inr stops : Lexeme.Stops Text.isDigit text more)
  rw [taken, dropped, List.takeWhile_eq_self_iff.mpr all, List.dropWhile_eq_nil_iff.mpr all]
  exact ⟨rfl, rfl⟩

theorem append (digits : IsDigits text) (others : ∀ c ∈ more, c.isDigit = true) :
    IsDigits (text ++ more) :=
  ⟨by simp [digits.some],
    fun c member => (List.mem_append.mp member).elim (digits.each c) (others c)⟩

theorem prepend (digits : IsDigits text) (others : ∀ c ∈ more, c.isDigit = true) :
    IsDigits (more ++ text) :=
  ⟨by simp [digits.some],
    fun c member => (List.mem_append.mp member).elim (others c) (digits.each c)⟩

end IsDigits

theorem isDigits_repr (n : Nat) : IsDigits n.repr.toList := by
  rw [Nat.toList_repr]
  exact ⟨Nat.toDigits_ne_nil, fun c member =>
    Nat.isDigit_of_mem_toDigits (by decide) (by decide) member⟩

variable {text : List Char}

theorem IsFraction.stops (point : IsFraction text) : ∀ c ∈ text.head?, Text.isDigit c = false := by
  cases point with
  | none => simp
  | digits =>
    rintro c ⟨⟩
    decide

theorem IsExponent.stops (mark : IsExponent text) : ∀ c ∈ text.head?, Text.isDigit c = false := by
  cases mark with
  | none => simp
  | plus | minus =>
    rintro c ⟨⟩
    decide

theorem IsFraction.read (point : IsFraction text) {more : List Char} (mark : IsExponent more) :
    Lexeme.fractionPart (text ++ more) = text := by
  cases point with
  | none =>
    cases mark with
    | none | plus | minus => rfl
  | digits digits isDigits =>
    obtain ⟨taken, -⟩ := isDigits.taken mark.stops
    cases digits with
    | nil => exact absurd rfl isDigits.some
    | cons c rest =>
      have digit := Text.isDigit_of_isDigit (isDigits.each c (by simp))
      rw [List.cons_append] at taken
      simp only [List.cons_append, Lexeme.fractionPart, digit, if_true, taken]

theorem IsExponent.read (mark : IsExponent text) : Lexeme.exponentPart text = text := by
  cases mark with
  | none => rfl
  | plus digits isDigits | minus digits isDigits =>
    have ended : ∀ c ∈ ([] : List Char).head?, Text.isDigit c = false := by simp
    have taken := (isDigits.taken ended).1
    rw [List.append_nil] at taken
    simp [Lexeme.exponentPart, taken, isDigits.some]

theorem isBlank_of_isDigit {c : Char} (digit : c.isDigit = true) : Text.isBlank c = false := by
  have bounds : 48 ≤ c.toNat ∧ c.toNat ≤ 57 := by
    simpa [Char.isDigit, UInt32.le_iff_toNat_le] using digit
  simp only [Text.isBlank, Text.blankRanges, List.any_cons, List.any_nil, Bool.or_false,
    Bool.or_eq_false_iff, Bool.and_eq_false_iff, decide_eq_false_iff_not]
  omega

theorem IsNumberText.number (number : IsNumberText text) :
    Lexeme.number text = ⟨.number, text, [], true⟩ := by
  cases number with
  | parts whole fraction exponent digits point mark =>
    have stops : ∀ c ∈ (fraction ++ exponent).head?, Text.isDigit c = false := by
      cases point with
      | none => exact mark.stops
      | digits text isDigits => exact (IsFraction.digits text isDigits).stops
    obtain ⟨taken, dropped⟩ := digits.taken stops
    rw [List.append_assoc]
    simp [Lexeme.number, taken, dropped, point.read mark, mark.read]

theorem IsNumberText.first (number : IsNumberText text) :
    ∃ c rest, text = c :: rest ∧ c.isDigit = true := by
  cases number with
  | parts whole fraction exponent digits point mark =>
    cases whole with
    | nil => exact absurd rfl digits.some
    | cons c rest => exact ⟨c, _, rfl, digits.each c (by simp)⟩

/-- The text of a number is one token. -/
theorem IsNumberText.next {c : Char} {rest : List Char} (number : IsNumberText (c :: rest)) :
    Lexeme.next c rest = ⟨.number, c :: rest, [], true⟩ := by
  obtain ⟨_, _, same, digit⟩ := number.first
  cases same
  unfold Lexeme.next
  rw [isBlank_of_isDigit digit, Text.isDigit_of_isDigit digit]
  exact number.number

theorem IsNumberText.tidy (number : IsNumberText text) : Tidy text := by
  obtain ⟨c, rest, rfl, -⟩ := number.first
  exact Source.tidy_nil.token number.next (by decide)

theorem toList_pushn (s : String) (c : Char) (n : Nat) :
    (s.pushn c n).toList = s.toList ++ List.replicate n c := by
  rw [String.pushn_eq_repeat_push]
  induction n with
  | zero => simp [Nat.repeat]
  | succ n ih => rw [Nat.repeat, String.toList_push, ih, List.replicate_succ', List.append_assoc]

theorem isDigit_zeros (n : Nat) : ∀ c ∈ List.replicate n '0', c.isDigit = true := by
  intro c member
  rw [(List.mem_replicate.mp member).2]
  decide

theorem isDigits_zero : IsDigits ['0'] :=
  ⟨by simp, isDigit_zeros 1⟩

namespace Binary64

variable {digits : String}

theorem isNumberText_positional (some : IsDigits digits.toList) (point : Int) :
    IsNumberText (positional digits point).toList := by
  unfold positional
  split
  next =>
    have fraction := IsFraction.digits _ (some.prepend (isDigit_zeros (-point).toNat))
    simpa [toList_pushn] using IsNumberText.parts ['0'] _ [] isDigits_zero fraction .none
  next inside =>
    split
    next =>
      have whole := some.append (isDigit_zeros (point.toNat - digits.length))
      have fraction := IsFraction.digits ['0'] isDigits_zero
      simpa [toList_pushn] using IsNumberText.parts _ _ [] whole fraction .none
    next shorter =>
      have between : 0 < point.toNat ∧ point.toNat < digits.toList.length := by
        rw [String.length_toList]
        omega
      have whole : IsDigits (digits.toList.take point.toNat) :=
        ⟨by simp only [ne_eq, List.take_eq_nil_iff, some.some, or_false]; omega,
          fun c member => some.each c (List.mem_of_mem_take member)⟩
      have fraction : IsDigits (digits.toList.drop point.toNat) :=
        ⟨by simp only [ne_eq, List.drop_eq_nil_iff]; omega,
          fun c member => some.each c (List.mem_of_mem_drop member)⟩
      simpa using IsNumberText.parts _ _ [] whole (.digits _ fraction) .none

theorem isFraction_text {fraction : String} (each : ∀ c ∈ fraction.toList, c.isDigit = true) :
    IsFraction (if fraction.isEmpty then "" else "." ++ fraction).toList := by
  by_cases empty : fraction = ""
  · subst empty
    exact .none
  · have some : fraction.isEmpty = false := by simp [empty]
    have text : IsDigits fraction.toList := ⟨by simp [empty], each⟩
    rw [some]
    simpa using IsFraction.digits _ text

theorem isExponent_text {magnitude : String} (digits : IsDigits magnitude.toList) (negative : Prop)
    [Decidable negative] :
    IsExponent ("e" ++ ((if negative then "-" else "+") ++ magnitude)).toList := by
  rw [String.toList_append, String.toList_append]
  split
  · exact .minus _ digits
  · exact .plus _ digits

theorem isNumberText_scientific (some : IsDigits digits.toList) (exponent : Int) :
    IsNumberText (scientific digits exponent).toList := by
  have whole : IsDigits (digits.take 1).toString.toList := by
    rw [String.Slice.toString_eq, String.toList_copy_take]
    exact ⟨by simp [some.some], fun c member => some.each c (List.mem_of_mem_take member)⟩
  have fraction : ∀ c ∈ (digits.drop 1).toString.toList, c.isDigit = true := by
    rw [String.Slice.toString_eq, String.toList_copy_drop]
    exact fun c member => some.each c (List.mem_of_mem_drop member)
  have magnitude : IsDigits (if (Nat.repr exponent.natAbs).length < 2
      then "0" ++ Nat.repr exponent.natAbs else Nat.repr exponent.natAbs).toList := by
    have digits := isDigits_repr exponent.natAbs
    split
    · rw [String.toList_append]
      exact digits.prepend (isDigit_zeros 1)
    · exact digits
  unfold scientific
  dsimp only
  generalize (digits.take 1).toString = first at whole
  generalize (digits.drop 1).toString = others at fraction
  generalize (if (Nat.repr exponent.natAbs).length < 2
    then "0" ++ Nat.repr exponent.natAbs else Nat.repr exponent.natAbs) = last at magnitude
  have parts := IsNumberText.parts _ _ _ whole (isFraction_text fraction)
    (isExponent_text magnitude (exponent < 0))
  simpa only [String.toList_append, List.append_assoc] using parts

theorem isNumberText_magnitude (units : Nat) : IsNumberText (renderMagnitude units).toList := by
  unfold renderMagnitude
  split
  · exact .parts ['0'] ['.', '0'] [] isDigits_zero (.digits ['0'] isDigits_zero) .none
  · have digits := isDigits_repr (shortest units).digits
    dsimp only
    split
    · exact isNumberText_positional digits _
    · exact isNumberText_scientific digits _

end Binary64

theorem IsNumberText.neat (number : IsNumberText text) : Neat text := by
  obtain ⟨c, rest, rfl, digit⟩ := number.first
  refine ⟨number.tidy, by simp, ?_⟩
  rintro ⟨⟩
  exact absurd digit (by decide)

theorem Number.neat_render (value : Number) : Neat value.render.toList := by
  have word : ∀ text : List Char, text = ['i', 'n', 'f'] ∨ text = ['n', 'a', 'n'] → Neat text := by
    rintro text (rfl | rfl) <;> exact ⟨Source.tidy_word (by decide) (by decide), by simp, by simp⟩
  have signed : ∀ (negative : Prop) [Decidable negative] (text : String), Neat text.toList →
      Neat ((if negative then "-" else "") ++ text).toList := by
    intro negative _ text neat
    split
    · rw [String.toList_append]
      exact neat.minus
    · simpa using neat
  have digits : ∀ n : Nat, Neat n.repr.toList := by
    intro n
    simpa using (IsNumberText.parts _ [] [] (isDigits_repr n) .none .none).neat
  cases value with
  | int value =>
    show Neat value.repr.toList
    rw [Int.repr_eq_if]
    split
    · exact digits _
    · rw [String.toList_append]
      exact (digits _).minus
  | float value =>
    cases value with
    | nan => exact word _ (.inr rfl)
    | infinite negative =>
      cases negative with
      | false => exact word _ (.inl rfl)
      | true => exact (word _ (.inl rfl)).minus
    | finite negative units _ =>
      exact signed _ _ (Binary64.isNumberText_magnitude units).neat

/-- The number that the text of a floating-point number's magnitude denotes is this magnitude. -/
def Binary64.ReadsBack : Binary64 → Prop
  | .finite _ units fits =>
      Number.read? (renderMagnitude units).toList = some (.float (.finite false units fits))
  | _ => False

theorem Text.digit?_of_isDigit {c : Char} (plain : c.isDigit = true) :
    Text.digit? c = some (c.toNat - '0'.toNat) := by
  simp only [Char.isDigit, Bool.and_eq_true, decide_eq_true_eq] at plain
  have lower : 48 ≤ c.toNat := plain.1
  have upper : c.toNat ≤ 57 := plain.2
  simp [digit?, zeros, lower, upper]

theorem Text.number_of_isDigit {digits : List Char} (each : ∀ c ∈ digits, c.isDigit = true) :
    Text.number digits = Nat.ofDigitChars 10 digits 0 := by
  refine List.foldl_ext _ _ _ fun total c member => ?_
  rw [Text.digit?_of_isDigit (each c member)]

theorem Text.digit?_le {c : Char} {value : Nat} (digit : digit? c = some value) : value ≤ 9 := by
  obtain ⟨start, found, rfl⟩ := Option.map_eq_some_iff.mp digit
  have within := List.find?_some found
  simp only [Bool.and_eq_true, decide_eq_true_eq] at within
  omega

/-- A text denotes no number with more digits than it has characters. -/
theorem Text.number_lt (text : List Char) : number text < Nat.pow 10 text.length := by
  suffices onward : ∀ total, text.foldl _ total < (total + 1) * 10 ^ text.length by
    have whole := onward 0
    rwa [Nat.zero_add, Nat.one_mul] at whole
  intro total
  induction text generalizing total with
  | nil => simp
  | cons c text ih =>
    rw [List.foldl_cons, List.length_cons, Nat.pow_succ, Nat.mul_comm (10 ^ _), ← Nat.mul_assoc]
    refine Nat.lt_of_lt_of_le (ih _) (Nat.mul_le_mul_right _ ?_)
    cases digit : digit? c with
    | some value =>
      have small := digit?_le digit
      dsimp only
      omega
    | none =>
      dsimp only
      omega

namespace Number

theorem isWritable_int {value : Int} :
    (int value).isWritable = true ↔ value.natAbs < Nat.pow 10 Text.digitLimit := by
  have bits : Nat.pow 2 64 ≤ Nat.pow 10 Text.digitLimit := by decide +kernel
  rw [isWritable, Bool.or_eq_true, decide_eq_true_eq, decide_eq_true_eq]
  exact or_iff_right_of_imp fun few => Nat.lt_of_lt_of_le few bits

@[simp] theorem isWritable_neg (value : Number) : value.neg.isWritable = value.isWritable := by
  cases value with
  | int value => simp [neg, isWritable]
  | float value => rfl

theorem isWritable_of_read? {text : List Char} {value : Number} (done : read? text = some value) :
    value.isWritable = true := by
  unfold read? at done
  split at done
  next =>
    split at done
    next few =>
      cases done
      refine isWritable_int.mpr (Nat.lt_of_lt_of_le (Text.number_lt _) ?_)
      rw [Nat.pow_eq, Nat.pow_eq]
      exact Nat.pow_le_pow_right (by decide) few
    next => cases done
  next =>
    cases done
    rfl

theorem read?_digits {digits : List Char} (each : ∀ c ∈ digits, c.isDigit = true)
    (few : digits.length ≤ Text.digitLimit) :
    read? digits = some (.int (Text.number digits)) := by
  have all : digits.all Text.isDigit = true :=
    List.all_eq_true.mpr fun c member => Text.isDigit_of_isDigit (each c member)
  rw [read?, if_pos all, if_pos few]

/-- Nothing but an integer is too long to be read. -/
theorem read?_eq_none_iff {text : List Char} :
    read? text = none ↔ (∀ c ∈ text, Text.isDigit c = true) ∧ Text.digitLimit < text.length := by
  rw [read?, ← List.all_eq_true]
  split
  next digits => simp [digits]
  next other => simp [other]

private theorem length_repr {n limit : Nat} (positive : 0 < limit) (few : n < Nat.pow 10 limit) :
    n.repr.toList.length ≤ limit := by
  rwa [String.length_toList, Nat.length_repr_le_iff positive]

theorem read?_repr {n : Nat} (few : n < Nat.pow 10 Text.digitLimit) :
    read? n.repr.toList = some (.int n) := by
  have digits := isDigits_repr n
  rw [read?_digits digits.each (length_repr (by decide) few), Text.number_of_isDigit digits.each,
    Nat.toList_repr, Nat.ofDigitChars_ten_toDigits]

/-- A text with a point or an exponent is no integer, so it may be long. -/
theorem exists_read?_of_mark {text : List Char} (mark : '.' ∈ text ∨ 'e' ∈ text) :
    ∃ value, read? text = some value := by
  refine Option.ne_none_iff_exists'.mp fun unread => ?_
  obtain ⟨digits, -⟩ := read?_eq_none_iff.mp unread
  rcases mark with point | exponent
  · exact absurd (digits _ point) (by decide)
  · exact absurd (digits _ exponent) (by decide)

theorem exists_read?_magnitude (units : Nat) :
    ∃ value, read? (Binary64.renderMagnitude units).toList = some value := by
  apply exists_read?_of_mark
  unfold Binary64.renderMagnitude
  dsimp only
  split
  next => exact .inl (by decide)
  next =>
    split
    next =>
      unfold Binary64.positional
      split
      next => simp
      next => split <;> simp
    next => simp [Binary64.scientific]

/-- The text of a number that has one denotes it, or without the minus sign it denotes the number's
negation. -/
theorem exists_text {value : Number} (writable : value.isWritable = true)
    (exact : ∀ x, value = .float x → x.ReadsBack) :
    ∃ text read, IsNumberText text ∧ read? text = some read ∧
      (value.render.toList = text ∧ read = value ∨
        value.render.toList = '-' :: text ∧ read.neg = value) := by
  cases value with
  | int value =>
    have few : value.natAbs < Nat.pow 10 Text.digitLimit := isWritable_int.mp writable
    have text : ∀ n : Nat, IsNumberText n.repr.toList := fun n => by
      simpa using IsNumberText.parts _ [] [] (isDigits_repr n) .none .none
    have render : (int value).render = value.repr := rfl
    rw [render, Int.repr_eq_if]
    split
    next positive =>
      have same : value.natAbs = value.toNat := by omega
      refine ⟨_, _, text value.toNat, read?_repr (same ▸ few), .inl ⟨rfl, ?_⟩⟩
      exact congrArg int (show (value.toNat : Int) = value by omega)
    next negative =>
      have same : value.natAbs = (-value).toNat := by omega
      refine ⟨_, _, text (-value).toNat, read?_repr (same ▸ few), .inr ⟨by simp, ?_⟩⟩
      exact congrArg int (show -((-value).toNat : Int) = value by omega)
  | float x =>
    have back := exact x rfl
    cases x with
    | nan | infinite => cases back
    | finite negative units fits =>
      refine ⟨_, _, Binary64.isNumberText_magnitude units, back, ?_⟩
      cases negative with
      | false => exact .inl ⟨by simp [render, Binary64.render], rfl⟩
      | true => exact .inr ⟨by simp [render, Binary64.render], rfl⟩

end Number

end AgentSpeak
