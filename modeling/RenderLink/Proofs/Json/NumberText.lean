/-
**Numbers as they are written.**

A number is an integer part, a fraction and an exponent, of which the last two may be missing. Such
a text is read, or passed over, up to its end and no further, provided that what follows does not
continue it; and nothing else is read or passed over as a number. Whether a number can be kept
depends on its text alone.

* `skipNumber_of_isNumber`, `isNumber_of_skipNumber`: what is passed over is a number.
* `numeral_of_isNumber`, `isNumber_of_numeral`: what is read is a number.
-/

import RenderLink.Json.Numeral
import RenderLink.Proofs.Json.Reading

namespace RenderLink.Json

/-! ### The grammar -/

/-- One digit or more. -/
def IsDigits (text : List Char) : Prop := text ≠ [] ∧ ∀ c ∈ text, c.isDigit = true

/-- A zero alone, or digits that do not begin with one. -/
def IsWhole (text : List Char) : Prop :=
  text = ['0'] ∨ ∃ first others, text = first :: others ∧ first.isDigit = true ∧ first ≠ '0' ∧
    ∀ c ∈ others, c.isDigit = true

/-- Nothing, or a point with digits behind it. -/
def IsFraction (text : List Char) : Prop :=
  text = [] ∨ ∃ digits, text = '.' :: digits ∧ IsDigits digits

/-- Nothing, or an `e` with digits behind it, which may have a sign. -/
def IsExponent (text : List Char) : Prop :=
  text = [] ∨ ∃ mark sign digits, text = mark :: (sign ++ digits) ∧ (mark = 'e' ∨ mark = 'E') ∧
    (sign = [] ∨ sign = ['+'] ∨ sign = ['-']) ∧ IsDigits digits

/-- A number without its sign. -/
def IsUnsigned (text : List Char) : Prop :=
  ∃ whole fraction exponent, text = whole ++ (fraction ++ exponent) ∧ IsWhole whole ∧
    IsFraction fraction ∧ IsExponent exponent

def IsNumber (text : List Char) : Prop :=
  ∃ sign number, text = sign ++ number ∧ (sign = [] ∨ sign = ['-']) ∧ IsUnsigned number

/-- The text does not continue a number that ends where it begins. -/
def Stops (text : List Char) : Prop :=
  ∀ c ∈ text.head?, c.isDigit = false ∧ c ≠ '.' ∧ c ≠ 'e' ∧ c ≠ 'E'

/-- A text that does not begin with a digit. -/
def NoDigit (text : List Char) : Prop := ∀ c ∈ text.head?, c.isDigit = false

theorem Stops.noDigit {text : List Char} (stops : Stops text) : NoDigit text := fun c first =>
  (stops c first).1

/-- An exponent does not begin with a digit, and neither does what stands behind it. -/
theorem IsExponent.noDigit {exponent rest : List Char} (isExponent : IsExponent exponent)
    (stops : Stops rest) : NoDigit (exponent ++ rest) := by
  obtain rfl | ⟨mark, sign, digits, rfl, marked, -, -⟩ := isExponent
  · exact stops.noDigit
  · intro c first
    obtain rfl : mark = c := by simpa using first
    obtain rfl | rfl := marked <;> rfl

theorem IsFraction.noDigit {fraction exponent rest : List Char} (isFraction : IsFraction fraction)
    (isExponent : IsExponent exponent) (stops : Stops rest) :
    NoDigit (fraction ++ (exponent ++ rest)) := by
  obtain rfl | ⟨digits, rfl, -⟩ := isFraction
  · exact isExponent.noDigit stops
  · intro c first
    obtain rfl : '.' = c := by simpa using first
    rfl

/-! ### Runs of digits -/

theorem digitRun_of_digits {digits rest : List Char} (all : ∀ c ∈ digits, c.isDigit = true)
    (ends : NoDigit rest) : digitRun.run (digits ++ rest) = .ok (digits, rest) := by
  have stop : rest.takeWhile Char.isDigit = [] ∧ rest.dropWhile Char.isDigit = rest := by
    cases rest with
    | nil => exact ⟨rfl, rfl⟩
    | cons c rest =>
      have other : c.isDigit = false := ends c rfl
      simp [other]
  simp [digitRun, Reader.takeWhile, List.takeWhile_append_of_pos all,
    List.dropWhile_append_of_pos all, stop]

theorem digits_of_digitRun {text digits rest : List Char}
    (run : digitRun.run text = .ok (digits, rest)) :
    text = digits ++ rest ∧ ∀ c ∈ digits, c.isDigit = true := by
  injection run with run
  injection run with taken left
  subst taken left
  exact ⟨List.takeWhile_append_dropWhile.symm, List.all_eq_true.mp List.all_takeWhile⟩

/-! ### Passing over -/

theorem skipDigits_of_digits {digits rest : List Char} (isDigits : IsDigits digits)
    (ends : NoDigit rest) : skipDigits.run (digits ++ rest) = .ok ((), rest) := by
  obtain ⟨nonempty, all⟩ := isDigits
  cases digits with
  | nil => exact absurd rfl nonempty
  | cons first others =>
    have digit := all first List.mem_cons_self
    have run := digitRun_of_digits (fun c member => all c (List.mem_cons_of_mem _ member)) ends
    simp [skipDigits, Reader.run_bind, Reader.next?, digit, run]

theorem digits_of_skipDigits {text rest : List Char} {value : Unit}
    (skipped : skipDigits.run text = .ok (value, rest)) :
    ∃ digits, text = digits ++ rest ∧ IsDigits digits := by
  cases text with
  | nil => cases skipped
  | cons first text =>
    simp only [skipDigits, Reader.run_bind, Reader.next?] at skipped
    split at skipped
    · next digit =>
      rw [Reader.run_bind] at skipped
      split at skipped
      · cases skipped
      · next others behind run =>
        cases skipped
        obtain ⟨rfl, all⟩ := digits_of_digitRun run
        refine ⟨first :: others, rfl, List.cons_ne_nil _ _, fun c member => ?_⟩
        rcases List.mem_cons.mp member with rfl | later
        · exact digit
        · exact all c later
    · cases skipped

theorem skipExponent_of_isExponent {exponent rest : List Char}
    (isExponent : IsExponent exponent) (stops : Stops rest) :
    skipExponent.run (exponent ++ rest) = .ok ((), rest) := by
  obtain rfl | ⟨mark, sign, digits, rfl, marked, signed, isDigits⟩ := isExponent
  · cases rest with
    | nil => rfl
    | cons c rest =>
      obtain ⟨-, -, small, large⟩ := stops c rfl
      simp [skipExponent, Reader.run_bind, Reader.peek?, small, large]
  · have skipped := skipDigits_of_digits isDigits stops.noDigit
    obtain ⟨first, others, rfl⟩ := List.exists_cons_of_ne_nil isDigits.1
    have digit := isDigits.2 first List.mem_cons_self
    have notPlus : first ≠ '+' := by rintro rfl; simp at digit
    have notMinus : first ≠ '-' := by rintro rfl; simp at digit
    obtain rfl | rfl := marked <;> obtain rfl | rfl | rfl := signed <;>
      simpa [skipExponent, Reader.run_bind, Reader.peek?, Reader.next, notPlus, notMinus]
        using skipped

theorem isExponent_of_skipExponent {text rest : List Char} {value : Unit}
    (skipped : skipExponent.run text = .ok (value, rest)) :
    ∃ exponent, text = exponent ++ rest ∧ IsExponent exponent := by
  have marked : ∀ {mark : Char} {text : List Char}, mark = 'e' ∨ mark = 'E' →
      skipExponent.run (mark :: text) = .ok (value, rest) →
      ∃ exponent, mark :: text = exponent ++ rest ∧ IsExponent exponent := by
    rintro mark text isMark skipped
    have signed : ∃ sign, (sign = [] ∨ sign = ['+'] ∨ sign = ['-']) ∧
        ∃ behind, text = sign ++ behind ∧ skipDigits.run behind = .ok (value, rest) := by
      cases text with
      | nil => obtain rfl | rfl := isMark <;> cases skipped
      | cons c text =>
        by_cases plus : c = '+'
        · subst plus
          refine ⟨['+'], Or.inr (Or.inl rfl), text, rfl, ?_⟩
          obtain rfl | rfl := isMark <;> simpa [skipExponent, Reader.run_bind] using skipped
        by_cases minus : c = '-'
        · subst minus
          refine ⟨['-'], Or.inr (Or.inr rfl), text, rfl, ?_⟩
          obtain rfl | rfl := isMark <;> simpa [skipExponent, Reader.run_bind] using skipped
        · refine ⟨[], Or.inl rfl, c :: text, rfl, ?_⟩
          obtain rfl | rfl := isMark <;>
            simpa [skipExponent, Reader.run_bind, plus, minus] using skipped
    obtain ⟨sign, isSign, behind, rfl, digitsSkipped⟩ := signed
    obtain ⟨digits, rfl, isDigits⟩ := digits_of_skipDigits digitsSkipped
    exact ⟨mark :: (sign ++ digits), by simp, Or.inr ⟨mark, sign, digits, rfl, isMark, isSign,
      isDigits⟩⟩
  cases text with
  | nil => exact ⟨[], by cases skipped; rfl, Or.inl rfl⟩
  | cons c text =>
    by_cases isMark : c = 'e' ∨ c = 'E'
    · exact marked isMark skipped
    · obtain ⟨small, large⟩ := not_or.mp isMark
      simp only [skipExponent, Reader.run_bind, Reader.run_peek?, List.head?_cons] at skipped
      split at skipped
      · next same => exact absurd (Option.some.inj same) small
      · next same => exact absurd (Option.some.inj same) large
      · cases skipped
        exact ⟨[], rfl, Or.inl rfl⟩

theorem skipFraction_of_isFraction {fraction exponent rest : List Char}
    (isFraction : IsFraction fraction) (isExponent : IsExponent exponent) (stops : Stops rest) :
    skipFraction.run (fraction ++ (exponent ++ rest)) = .ok ((), rest) := by
  have exponentSkipped := skipExponent_of_isExponent isExponent stops
  obtain rfl | ⟨digits, rfl, isDigits⟩ := isFraction
  · have noPoint : (exponent ++ rest).head? ≠ some '.' := by
      obtain rfl | ⟨mark, sign, digits, rfl, rfl | rfl, -, -⟩ := isExponent
      · intro point
        exact (stops '.' point).2.1 rfl
      · simp
      · simp
    rw [List.nil_append, skipFraction, Reader.run_bind_of_ok (Reader.run_peek? _)]
    split
    · next point => exact absurd point noPoint
    · exact exponentSkipped
  · have digitsSkipped := skipDigits_of_digits isDigits (isExponent.noDigit stops)
    simp [skipFraction, Reader.run_bind, digitsSkipped, exponentSkipped]

theorem isFraction_of_skipFraction {text rest : List Char} {value : Unit}
    (skipped : skipFraction.run text = .ok (value, rest)) :
    ∃ fraction exponent, text = fraction ++ (exponent ++ rest) ∧ IsFraction fraction ∧
      IsExponent exponent := by
  simp only [skipFraction, Reader.run_bind, Reader.run_peek?] at skipped
  split at skipped
  · next point =>
    obtain ⟨text, rfl⟩ : ∃ behind, text = '.' :: behind := by
      cases text with
      | nil => cases point
      | cons c text => exact ⟨text, by cases point; rfl⟩
    rw [Reader.run_bind_of_ok (Reader.run_next_cons '.' text),
      Reader.run_bind_eq_ok_iff] at skipped
    obtain ⟨_, behind, digitsSkipped, exponentSkipped⟩ := skipped
    obtain ⟨digits, rfl, isDigits⟩ := digits_of_skipDigits digitsSkipped
    obtain ⟨exponent, rfl, isExponent⟩ := isExponent_of_skipExponent exponentSkipped
    exact ⟨'.' :: digits, exponent, rfl, Or.inr ⟨digits, rfl, isDigits⟩, isExponent⟩
  · obtain ⟨exponent, rfl, isExponent⟩ := isExponent_of_skipExponent skipped
    exact ⟨[], exponent, rfl, Or.inl rfl, isExponent⟩

/-- A number that is passed over, behind its sign. -/
theorem skipNumber_of_isUnsigned {number rest : List Char} (isUnsigned : IsUnsigned number)
    (stops : Stops rest) :
    ∃ first others, number = first :: others ∧ first.isDigit = true ∧
      (skipNumber first).run (others ++ rest) = .ok ((), rest) := by
  obtain ⟨whole, fraction, exponent, rfl, isWhole, isFraction, isExponent⟩ := isUnsigned
  have skipped := skipFraction_of_isFraction isFraction isExponent stops
  have ends := isFraction.noDigit isExponent stops
  obtain rfl | ⟨first, others, rfl, digit, notZero, all⟩ := isWhole
  · refine ⟨'0', fraction ++ exponent, rfl, rfl, ?_⟩
    have reached : (skipNumber '0').run (fraction ++ (exponent ++ rest)) =
        skipFraction.run (fraction ++ (exponent ++ rest)) := by
      cases behind : fraction ++ (exponent ++ rest) with
      | nil => rfl
      | cons c text =>
        have other : c.isDigit = false := ends c (by rw [behind]; rfl)
        simp [skipNumber, Reader.run_bind, other]
    rw [List.append_assoc, reached, skipped]
  · refine ⟨first, others ++ (fraction ++ exponent), rfl, digit, ?_⟩
    have notMinus : first ≠ '-' := by rintro rfl; cases digit
    have run := digitRun_of_digits all ends
    simp [skipNumber, Reader.run_bind, notMinus, digit, run, skipped]

/-- **A number is passed over up to its end.** -/
theorem skipNumber_of_isNumber {number rest : List Char} (isNumber : IsNumber number)
    (stops : Stops rest) :
    ∃ first others, number = first :: others ∧ (first = '-' ∨ first.isDigit = true) ∧
      (skipNumber first).run (others ++ rest) = .ok ((), rest) := by
  obtain ⟨sign, number, rfl, signed, isUnsigned⟩ := isNumber
  obtain ⟨first, others, rfl, digit, skipped⟩ := skipNumber_of_isUnsigned isUnsigned stops
  obtain rfl | rfl := signed
  · exact ⟨first, others, rfl, Or.inr digit, skipped⟩
  · refine ⟨'-', first :: others, rfl, Or.inl rfl, ?_⟩
    have notMinus : first ≠ '-' := by rintro rfl; cases digit
    simpa [skipNumber, Reader.run_bind, notMinus] using skipped

theorem isUnsigned_of_skipNumber {first : Char} {text rest : List Char} {value : Unit}
    (notMinus : first ≠ '-') (skipped : (skipNumber first).run text = .ok (value, rest)) :
    ∃ others, text = others ++ rest ∧ IsUnsigned (first :: others) := by
  by_cases zero : first = '0'
  · subst zero
    have fractionSkipped : skipFraction.run text = .ok (value, rest) := by
      cases text with
      | nil => exact skipped
      | cons c text =>
        simp only [skipNumber, Reader.run_bind, Reader.run_pure, Reader.run_peek?,
          List.head?_cons, notMinus, if_false] at skipped
        split at skipped
        · cases skipped
        · exact skipped
    obtain ⟨fraction, exponent, rfl, isFraction, isExponent⟩ :=
      isFraction_of_skipFraction fractionSkipped
    exact ⟨fraction ++ exponent, by simp, ['0'], fraction, exponent, rfl, Or.inl rfl, isFraction,
      isExponent⟩
  · simp only [skipNumber, notMinus, if_false, Reader.run_bind, Reader.run_pure] at skipped
    split at skipped
    · next digit =>
      obtain ⟨others, behind, run, fractionSkipped⟩ := Reader.run_bind_eq_ok_iff.mp skipped
      obtain ⟨rfl, all⟩ := digits_of_digitRun run
      obtain ⟨fraction, exponent, rfl, isFraction, isExponent⟩ :=
        isFraction_of_skipFraction fractionSkipped
      exact ⟨others ++ (fraction ++ exponent), by simp, first :: others, fraction, exponent, rfl,
        Or.inr ⟨first, others, rfl, digit, zero, all⟩, isFraction, isExponent⟩
    · cases skipped

/-- **What is passed over as a number is one.** -/
theorem isNumber_of_skipNumber {first : Char} {text rest : List Char} {value : Unit}
    (skipped : (skipNumber first).run text = .ok (value, rest)) :
    ∃ others, text = others ++ rest ∧ IsNumber (first :: others) := by
  by_cases minus : first = '-'
  · subst minus
    cases text with
    | nil => cases skipped
    | cons digit text =>
      have notMinus : digit ≠ '-' := by
        rintro rfl
        cases skipped
      have unsigned : (skipNumber digit).run text = .ok (value, rest) := by
        simpa [skipNumber, Reader.run_bind, notMinus] using skipped
      obtain ⟨others, rfl, isUnsigned⟩ := isUnsigned_of_skipNumber notMinus unsigned
      exact ⟨digit :: others, rfl, ['-'], digit :: others, rfl, Or.inr rfl, isUnsigned⟩
  · obtain ⟨others, rfl, isUnsigned⟩ := isUnsigned_of_skipNumber minus skipped
    exact ⟨others, rfl, [], first :: others, rfl, Or.inl rfl, isUnsigned⟩

/-! ### Reading -/

/-- The reader takes nothing, and what it gives depends on nothing. -/
def IsSteady {α : Type} (reader : Reader α) : Prop :=
  ∃ value, ∀ rest, reader.run rest = answer (kept value) rest

theorem IsSteady.ite {α : Type} {condition : Prop} [Decidable condition] {first second : Reader α}
    (yes : IsSteady first) (no : IsSteady second) :
    IsSteady (if condition then first else second) := by
  split
  · exact yes
  · exact no

theorem isSteady_fail {α : Type} : IsSteady (Reader.fail .notJson : Reader α) :=
  ⟨none, fun _ => rfl⟩

theorem isSteady_double (negative : Bool) (significand : Nat) (exponent : Int) :
    IsSteady (double negative significand exponent) := by
  unfold double
  split
  · exact ⟨some _, fun _ => rfl⟩
  · exact isSteady_fail

theorem isSteady_integer (negative : Bool) (significand : Nat) :
    IsSteady (integer negative significand) := by
  unfold integer
  split
  · split
    · exact ⟨some _, fun _ => rfl⟩
    · exact isSteady_double _ _ _
  · exact ⟨some _, fun _ => rfl⟩

/-- The exponent of a number, behind its `e`. -/
theorem exponentPart_run (negative : Bool) (significand : Nat) (exponent : Int)
    {sign digits : List Char} (signed : sign = [] ∨ sign = ['+'] ∨ sign = ['-'])
    (isDigits : IsDigits digits) :
    ∃ value, ∀ rest, NoDigit rest →
      (exponentPart negative significand exponent).run (sign ++ (digits ++ rest)) =
        answer (kept value) rest := by
  obtain ⟨first, others, rfl⟩ := List.exists_cons_of_ne_nil isDigits.1
  have digit := isDigits.2 first List.mem_cons_self
  have all : ∀ c ∈ others, c.isDigit = true := fun c member =>
    isDigits.2 c (List.mem_cons_of_mem _ member)
  have notPlus : first ≠ '+' := by rintro rfl; cases digit
  have notMinus : first ≠ '-' := by rintro rfl; cases digit
  have steady (power : Int) (downwards : Bool) : IsSteady
      (if (first :: others).foldl (fun value digit => value * 10 + digitValue digit) 0 ≤
          exponentLimit then double negative significand power
        else if significand = 0 ∨ downwards = true then double negative 0 0
        else Reader.fail .notJson) :=
    (isSteady_double _ _ _).ite ((isSteady_double _ _ _).ite isSteady_fail)
  obtain ⟨value, answers⟩ := steady
    (exponent + if sign = ['-'] then
      -(((first :: others).foldl (fun value digit => value * 10 + digitValue digit) 0 : Nat) : Int)
      else ((first :: others).foldl (fun value digit => value * 10 + digitValue digit) 0 : Nat))
    (sign = ['-'])
  refine ⟨value, fun rest ends => ?_⟩
  rw [← answers rest]
  obtain rfl | rfl | rfl := signed <;>
    simp [exponentPart, Reader.run_bind, notPlus, notMinus, digit, digitRun_of_digits all ends]

/-- The exponent of a number, if it has one. -/
theorem scaled_run (negative : Bool) (significand : Nat) (power : Int) {exponent : List Char}
    (isExponent : IsExponent exponent) :
    ∃ value, ∀ rest, Stops rest →
      (scaled negative significand power).run (exponent ++ rest) = answer (kept value) rest := by
  obtain rfl | ⟨mark, sign, digits, rfl, marked, signed, isDigits⟩ := isExponent
  · obtain ⟨value, answers⟩ := isSteady_double negative significand power
    refine ⟨value, fun rest stops => ?_⟩
    rw [List.nil_append, scaled, Reader.run_bind_of_ok (Reader.run_peek? _), ← answers rest]
    split
    · next small => exact absurd rfl (stops 'e' small).2.2.1
    · next large => exact absurd rfl (stops 'E' large).2.2.2
    · rfl
  · obtain ⟨value, answers⟩ := exponentPart_run negative significand power signed isDigits
    refine ⟨value, fun rest stops => ?_⟩
    rw [← answers rest stops.noDigit]
    obtain rfl | rfl := marked <;> simp [scaled, Reader.run_bind]

/-- The fraction of a number, behind its point, and its exponent. -/
theorem fractionPart_run (negative : Bool) (significand : Nat) (power : Int)
    {digits exponent : List Char} (isDigits : IsDigits digits) (isExponent : IsExponent exponent) :
    ∃ value, ∀ rest, Stops rest →
      (fractionPart negative significand power).run (digits ++ (exponent ++ rest)) =
        answer (kept value) rest := by
  obtain ⟨value, answers⟩ := scaled_run negative (absorb significand digits).1
    (power - (digits.length - (absorb significand digits).2.length : Nat)) isExponent
  refine ⟨value, fun rest stops => ?_⟩
  have run := digitRun_of_digits isDigits.2 (isExponent.noDigit stops)
  have some : digits.isEmpty = false := by simpa using isDigits.1
  rw [← answers rest stops, fractionPart, Reader.run_bind_of_ok run, some]
  rfl

/-- What stands behind the integer part of a number. -/
theorem afterInteger_run (negative : Bool) (significand dropped : Nat)
    {fraction exponent : List Char} (isFraction : IsFraction fraction)
    (isExponent : IsExponent exponent) :
    ∃ value, ∀ rest, Stops rest →
      (afterInteger negative significand dropped).run (fraction ++ (exponent ++ rest)) =
        answer (kept value) rest := by
  obtain rfl | ⟨digits, rfl, isDigits⟩ := isFraction
  · obtain rfl | ⟨mark, sign, digits, rfl, marked, signed, isDigits⟩ := isExponent
    · have steady : IsSteady (if dropped = 0 then integer negative significand
          else double negative significand dropped) :=
        (isSteady_integer _ _).ite (isSteady_double _ _ _)
      obtain ⟨value, answers⟩ := steady
      refine ⟨value, fun rest stops => ?_⟩
      rw [List.nil_append, List.nil_append, afterInteger,
        Reader.run_bind_of_ok (Reader.run_peek? _), ← answers rest]
      split
      · next point => exact absurd rfl (stops '.' point).2.1
      · next small => exact absurd rfl (stops 'e' small).2.2.1
      · next large => exact absurd rfl (stops 'E' large).2.2.2
      · rfl
    · have isExponent : IsExponent (mark :: (sign ++ digits)) :=
        Or.inr ⟨mark, sign, digits, rfl, marked, signed, isDigits⟩
      obtain ⟨value, answers⟩ := scaled_run negative significand dropped isExponent
      refine ⟨value, fun rest stops => ?_⟩
      rw [← answers rest stops]
      obtain rfl | rfl := marked <;> simp [afterInteger, Reader.run_bind]
  · obtain ⟨value, answers⟩ := fractionPart_run negative significand dropped isDigits isExponent
    refine ⟨value, fun rest stops => ?_⟩
    rw [← answers rest stops]
    simp [afterInteger, Reader.run_bind]

/-- A number that is read, behind its sign. -/
theorem afterFirstDigit_run (negative : Bool) {number : List Char}
    (isUnsigned : IsUnsigned number) :
    ∃ first others value, number = first :: others ∧ first.isDigit = true ∧
      ∀ rest, Stops rest →
        (afterFirstDigit negative first).run (others ++ rest) = answer (kept value) rest := by
  obtain ⟨whole, fraction, exponent, rfl, isWhole, isFraction, isExponent⟩ := isUnsigned
  obtain rfl | ⟨first, others, rfl, digit, notZero, all⟩ := isWhole
  · obtain ⟨value, answers⟩ := afterInteger_run negative 0 0 isFraction isExponent
    refine ⟨'0', fraction ++ exponent, value, rfl, rfl, fun rest stops => ?_⟩
    have ends := isFraction.noDigit isExponent stops
    rw [List.append_assoc, ← answers rest stops]
    cases behind : fraction ++ (exponent ++ rest) with
    | nil => rfl
    | cons c text =>
      have other : c.isDigit = false := ends c (by rw [behind]; rfl)
      simp [afterFirstDigit, Reader.run_bind, other]
  · obtain ⟨value, answers⟩ := afterInteger_run negative (absorb (digitValue first) others).1
      (absorb (digitValue first) others).2.length isFraction isExponent
    refine ⟨first, others ++ (fraction ++ exponent), value, rfl, digit, fun rest stops => ?_⟩
    have run := digitRun_of_digits all (isFraction.noDigit isExponent stops)
    rw [← answers rest stops]
    simp [afterFirstDigit, notZero, digit, Reader.run_bind, run]

/-- **A number is read up to its end**, and what it is read as depends on nothing else. -/
theorem numeral_of_isNumber {number : List Char} (isNumber : IsNumber number) :
    ∃ first others value, number = first :: others ∧ (first = '-' ∨ first.isDigit = true) ∧
      ∀ rest, Stops rest → (numeral first).run (others ++ rest) = answer (kept value) rest := by
  obtain ⟨sign, number, rfl, signed, isUnsigned⟩ := isNumber
  obtain rfl | rfl := signed
  · obtain ⟨first, others, value, rfl, digit, answers⟩ := afterFirstDigit_run false isUnsigned
    refine ⟨first, others, value, rfl, Or.inr digit, fun rest stops => ?_⟩
    have notMinus : first ≠ '-' := by rintro rfl; cases digit
    rw [← answers rest stops, numeral, if_neg notMinus]
  · obtain ⟨first, others, value, rfl, digit, answers⟩ := afterFirstDigit_run true isUnsigned
    refine ⟨'-', first :: others, value, rfl, Or.inl rfl, fun rest stops => ?_⟩
    rw [← answers rest stops, numeral, if_pos rfl]
    rfl

theorem rest_of_isSteady {α : Type} {reader : Reader α} {text rest : List Char} {value : α}
    (steady : IsSteady reader) (read : reader.run text = .ok (value, rest)) : text = rest := by
  obtain ⟨outcome, answers⟩ := steady
  rw [answers text] at read
  cases outcome with
  | none => cases read
  | some found =>
    injection read with read
    exact congrArg Prod.snd read

/-- What a reader of digits has taken before it looks at what they are worth. -/
theorem digits_of_read {α : Type} {reader : Char → List Char → Reader α} {text rest : List Char}
    {value : α} (steady : ∀ first others, IsSteady (reader first others))
    (read : (do
      let first ← Reader.next
      if !first.isDigit then Reader.fail .notJson
      else
        let others ← digitRun
        reader first others : Reader α).run text = .ok (value, rest)) :
    ∃ digits, text = digits ++ rest ∧ IsDigits digits := by
  obtain ⟨first, behind, taken, chosen⟩ := Reader.run_bind_eq_ok_iff.mp read
  cases text with
  | nil => cases taken
  | cons c text =>
    cases taken
    split at chosen
    · cases chosen
    · next digit =>
      obtain ⟨others, last, run, worth⟩ := Reader.run_bind_eq_ok_iff.mp chosen
      obtain ⟨rfl, all⟩ := digits_of_digitRun run
      obtain rfl := rest_of_isSteady (steady _ _) worth
      refine ⟨first :: others, rfl, List.cons_ne_nil _ _, fun c member => ?_⟩
      rcases List.mem_cons.mp member with rfl | later
      · simpa using digit
      · exact all c later

theorem digits_of_exponentPart {negative : Bool} {significand : Nat} {power : Int}
    {text rest : List Char} {value : Number}
    (read : (exponentPart negative significand power).run text = .ok (value, rest)) :
    ∃ sign digits, text = sign ++ (digits ++ rest) ∧
      (sign = [] ∨ sign = ['+'] ∨ sign = ['-']) ∧ IsDigits digits := by
  rw [exponentPart, Reader.run_bind_of_ok (Reader.run_peek? text)] at read
  have steady (downwards : Bool) (first : Char) (others : List Char) : IsSteady
      (let number := (first :: others).foldl (fun value digit => value * 10 + digitValue digit) 0
        if number ≤ exponentLimit then
          double negative significand (power + if downwards then -(number : Int) else number)
        else if significand = 0 ∨ downwards then double negative 0 0
        else Reader.fail .notJson) :=
    (isSteady_double _ _ _).ite ((isSteady_double _ _ _).ite isSteady_fail)
  split at read
  · next signed =>
    cases text with
    | nil => simp at signed
    | cons c text =>
      rw [Reader.run_bind_of_ok (Reader.run_next_cons c text)] at read
      obtain ⟨digits, rfl, isDigits⟩ := digits_of_read (fun first others => by
        simpa using steady (c = '-') first others) read
      refine ⟨[c], digits, rfl, Or.inr ?_, isDigits⟩
      simpa using signed
  · obtain ⟨digits, rfl, isDigits⟩ := digits_of_read (fun first others => by
      simpa using steady (text.head? = some '-') first others) read
    exact ⟨[], digits, rfl, Or.inl rfl, isDigits⟩

theorem isExponent_of_scaled {negative : Bool} {significand : Nat} {power : Int}
    {text rest : List Char} {value : Number}
    (read : (scaled negative significand power).run text = .ok (value, rest)) :
    ∃ exponent, text = exponent ++ rest ∧ IsExponent exponent := by
  have marked {mark : Char} (isMark : mark = 'e' ∨ mark = 'E') (first : text.head? = some mark)
      (read : (do
        let _ ← Reader.next
        exponentPart negative significand power : Reader Number).run text = .ok (value, rest)) :
      ∃ exponent, text = exponent ++ rest ∧ IsExponent exponent := by
    cases text with
    | nil => cases first
    | cons c text =>
      obtain rfl : c = mark := Option.some.inj first
      rw [Reader.run_bind_of_ok (Reader.run_next_cons c text)] at read
      obtain ⟨sign, digits, rfl, signed, isDigits⟩ := digits_of_exponentPart read
      exact ⟨c :: (sign ++ digits), by simp, Or.inr ⟨c, sign, digits, rfl, isMark, signed,
        isDigits⟩⟩
  rw [scaled, Reader.run_bind_of_ok (Reader.run_peek? text)] at read
  split at read
  · next small => exact marked (Or.inl rfl) small read
  · next large => exact marked (Or.inr rfl) large read
  · obtain rfl := rest_of_isSteady (isSteady_double _ _ _) read
    exact ⟨[], rfl, Or.inl rfl⟩

theorem digits_of_fractionPart {negative : Bool} {significand : Nat} {power : Int}
    {text rest : List Char} {value : Number}
    (read : (fractionPart negative significand power).run text = .ok (value, rest)) :
    ∃ digits exponent, text = digits ++ (exponent ++ rest) ∧ IsDigits digits ∧
      IsExponent exponent := by
  obtain ⟨digits, behind, run, continued⟩ := Reader.run_bind_eq_ok_iff.mp read
  obtain ⟨rfl, all⟩ := digits_of_digitRun run
  split at continued
  · obtain ⟨_, _, _, failed⟩ := Reader.run_bind_eq_ok_iff.mp continued
    cases failed
  · next some =>
    obtain ⟨exponent, rfl, isExponent⟩ := isExponent_of_scaled continued
    exact ⟨digits, exponent, rfl, ⟨by simpa using some, all⟩, isExponent⟩

theorem isFraction_of_afterInteger {negative : Bool} {significand dropped : Nat}
    {text rest : List Char} {value : Number}
    (read : (afterInteger negative significand dropped).run text = .ok (value, rest)) :
    ∃ fraction exponent, text = fraction ++ (exponent ++ rest) ∧ IsFraction fraction ∧
      IsExponent exponent := by
  have whole {exponent : List Char} (split : text = exponent ++ rest)
      (isExponent : IsExponent exponent) :
      ∃ fraction exponent, text = fraction ++ (exponent ++ rest) ∧ IsFraction fraction ∧
        IsExponent exponent := ⟨[], exponent, split, Or.inl rfl, isExponent⟩
  rw [afterInteger, Reader.run_bind_of_ok (Reader.run_peek? text)] at read
  split at read
  · next point =>
    cases text with
    | nil => cases point
    | cons c text =>
      obtain rfl : c = '.' := Option.some.inj point
      rw [Reader.run_bind_of_ok (Reader.run_next_cons '.' text)] at read
      obtain ⟨digits, exponent, rfl, isDigits, isExponent⟩ := digits_of_fractionPart read
      exact ⟨'.' :: digits, exponent, rfl, Or.inr ⟨digits, rfl, isDigits⟩, isExponent⟩
  · obtain ⟨exponent, split, isExponent⟩ := isExponent_of_scaled read
    exact whole split isExponent
  · obtain ⟨exponent, split, isExponent⟩ := isExponent_of_scaled read
    exact whole split isExponent
  · obtain rfl := rest_of_isSteady ((isSteady_integer _ _).ite (isSteady_double _ _ _)) read
    exact whole (List.nil_append _).symm (Or.inl rfl)

theorem isUnsigned_of_afterFirstDigit {negative : Bool} {first : Char} {text rest : List Char}
    {value : Number} (read : (afterFirstDigit negative first).run text = .ok (value, rest)) :
    ∃ others, text = others ++ rest ∧ IsUnsigned (first :: others) := by
  unfold afterFirstDigit at read
  split at read
  · next zero =>
    subst zero
    have fractionRead : (afterInteger negative 0 0).run text = .ok (value, rest) := by
      rw [Reader.run_bind_of_ok (Reader.run_peek? text)] at read
      split at read
      · split at read
        · cases read
        · exact read
      · exact read
    obtain ⟨fraction, exponent, rfl, isFraction, isExponent⟩ :=
      isFraction_of_afterInteger fractionRead
    exact ⟨fraction ++ exponent, by simp, ['0'], fraction, exponent, rfl, Or.inl rfl, isFraction,
      isExponent⟩
  · next notZero =>
    split at read
    · next digit =>
      obtain ⟨others, behind, run, continued⟩ := Reader.run_bind_eq_ok_iff.mp read
      obtain ⟨rfl, all⟩ := digits_of_digitRun run
      obtain ⟨fraction, exponent, rfl, isFraction, isExponent⟩ :=
        isFraction_of_afterInteger continued
      exact ⟨others ++ (fraction ++ exponent), by simp, first :: others, fraction, exponent, rfl,
        Or.inr ⟨first, others, rfl, digit, notZero, all⟩, isFraction, isExponent⟩
    · cases read

/-- **What is read as a number is one.** -/
theorem isNumber_of_numeral {first : Char} {text rest : List Char} {value : Number}
    (read : (numeral first).run text = .ok (value, rest)) :
    ∃ others, text = others ++ rest ∧ IsNumber (first :: others) := by
  unfold numeral at read
  split at read
  · next minus =>
    subst minus
    cases text with
    | nil => cases read
    | cons digit text =>
      rw [Reader.run_bind_of_ok (Reader.run_next_cons digit text)] at read
      obtain ⟨others, rfl, isUnsigned⟩ := isUnsigned_of_afterFirstDigit read
      exact ⟨digit :: others, rfl, ['-'], digit :: others, rfl, Or.inr rfl, isUnsigned⟩
  · obtain ⟨others, rfl, isUnsigned⟩ := isUnsigned_of_afterFirstDigit read
    exact ⟨others, rfl, [], first :: others, rfl, Or.inl rfl, isUnsigned⟩

/-! ### Numbers of a text -/

/-- A number as it is written. -/
structure NumberText where
  chars : List Char
  isNumber : IsNumber chars

namespace NumberText

/-- The value of a number, if it can be kept. -/
def value? (number : NumberText) : Option Number :=
  match number.chars with
  | [] => none
  | first :: others => ((numeral first).run others).toOption.map Prod.fst

theorem value?_eq {number : NumberText} {first : Char} {others : List Char}
    (shape : number.chars = first :: others) :
    number.value? = ((numeral first).run others).toOption.map Prod.fst := by
  rw [value?, shape]

/-- A number begins with a digit or a sign. -/
theorem exists_cons (number : NumberText) :
    ∃ first others, number.chars = first :: others ∧ (first = '-' ∨ first.isDigit = true) := by
  obtain ⟨first, others, -, shape, start, -⟩ := numeral_of_isNumber number.isNumber
  exact ⟨first, others, shape, start⟩

/-- A number is read as its value. -/
theorem numeral_run {number : NumberText} {first : Char} {others : List Char}
    (shape : number.chars = first :: others) {rest : List Char} (stops : Stops rest) :
    (numeral first).run (others ++ rest) = answer (kept number.value?) rest := by
  obtain ⟨c, text, value, split, -, answers⟩ := numeral_of_isNumber number.isNumber
  obtain ⟨rfl, rfl⟩ := List.cons.inj (shape.symm.trans split)
  have alone := answers [] fun c first => by cases first
  rw [List.append_nil] at alone
  have known : number.value? = value := by
    rw [value?, shape]
    show ((numeral first).run others).toOption.map Prod.fst = value
    rw [alone]
    cases value <;> rfl
  rw [known]
  exact answers rest stops

/-- A number is passed over. -/
theorem skipNumber_run {number : NumberText} {first : Char} {others : List Char}
    (shape : number.chars = first :: others) {rest : List Char} (stops : Stops rest) :
    (skipNumber first).run (others ++ rest) = .ok ((), rest) := by
  obtain ⟨c, text, split, -, skipped⟩ := skipNumber_of_isNumber number.isNumber stops
  obtain ⟨rfl, rfl⟩ := List.cons.inj (shape.symm.trans split)
  exact skipped

end NumberText

end RenderLink.Json
