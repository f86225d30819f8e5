/-
**Integers are read back.**

The decimal digits of a natural number begin with a zero only if it is zero, so they are a number of
the grammar. Reading them builds the number up digit by digit, and as long as it fits 64 bits no
digit is dropped.

* `absorb_eq`: digits that fit are all taken in.
* `isNumber_naturalDigits`: digits are a number of the grammar.
* `NumberText.value?_ofNatural`, `NumberText.value?_ofNegative`: **an integer is read as itself.**
-/

import RenderLink.Proofs.Json.NumberText

namespace RenderLink.Json

open Decimal

/-! ### Digits -/

theorem digitChar_eq_zero : ∀ n < 10, n.digitChar = '0' → n = 0 := by
  decide

/-- Only zero is written with a zero in front. -/
theorem eq_zero_of_leading_zero {n : Nat} {others : List Char}
    (shape : naturalDigits n = '0' :: others) : n = 0 := by
  induction n using Nat.strongRecOn generalizing others with
  | _ n ih =>
    rw [naturalDigits, Nat.toDigits_eq_if (by decide)] at shape
    split at shape
    · next small =>
      have digit : n.digitChar = '0' := (List.cons.inj shape).1
      exact digitChar_eq_zero n small digit
    · next large =>
      cases tens : Nat.toDigits 10 (n / 10) with
      | nil => exact absurd tens Nat.toDigits_ne_nil
      | cons first behind =>
        rw [tens] at shape
        obtain ⟨rfl, -⟩ := List.cons.inj shape
        have none := ih (n / 10) (by omega) tens
        omega

theorem isDigit_of_mem_naturalDigits {n : Nat} {c : Char} (member : c ∈ naturalDigits n) :
    c.isDigit = true :=
  Nat.isDigit_of_mem_toDigits (by decide) (by decide) member

/-- The digits of a number are a zero alone, or do not begin with one. -/
theorem isWhole_naturalDigits (n : Nat) : IsWhole (naturalDigits n) := by
  by_cases zero : n = 0
  · subst zero
    exact Or.inl rfl
  · cases shape : naturalDigits n with
    | nil => exact absurd shape Nat.toDigits_ne_nil
    | cons first others =>
      have digits : ∀ c ∈ first :: others, c.isDigit = true := fun c member =>
        isDigit_of_mem_naturalDigits (shape ▸ member)
      refine Or.inr ⟨first, others, rfl, digits first List.mem_cons_self, ?_,
        fun c member => digits c (List.mem_cons_of_mem _ member)⟩
      rintro rfl
      exact zero (eq_zero_of_leading_zero shape)

theorem isUnsigned_naturalDigits (n : Nat) : IsUnsigned (naturalDigits n) :=
  ⟨naturalDigits n, [], [], by simp, isWhole_naturalDigits n, Or.inl rfl, Or.inl rfl⟩

/-- Digits are a number of the grammar. -/
theorem isNumber_naturalDigits (n : Nat) : IsNumber (naturalDigits n) :=
  ⟨[], naturalDigits n, rfl, Or.inl rfl, isUnsigned_naturalDigits n⟩

/-- Digits with a sign are a number of the grammar. -/
theorem isNumber_negative (n : Nat) : IsNumber ('-' :: naturalDigits n) :=
  ⟨['-'], naturalDigits n, rfl, Or.inr rfl, isUnsigned_naturalDigits n⟩

/-! ### Reading digits -/

theorem ofDigitChars_cons (digit : Char) (digits : List Char) (start : Nat) :
    Nat.ofDigitChars 10 (digit :: digits) start =
      Nat.ofDigitChars 10 digits (start * 10 + digitValue digit) := by
  rw [Nat.mul_comm]
  rfl

/-- Further digits make a number no smaller. -/
theorem le_ofDigitChars (digits : List Char) (start : Nat) :
    start ≤ Nat.ofDigitChars 10 digits start := by
  induction digits generalizing start with
  | nil => exact Nat.le_refl _
  | cons digit digits ih =>
    rw [ofDigitChars_cons]
    have further := ih (start * 10 + digitValue digit)
    omega

/-- Digits that fit 64 bits are all taken in. -/
theorem absorb_eq {digits : List Char} {start : Nat}
    (fits : Nat.ofDigitChars 10 digits start < UInt64.size) :
    absorb start digits = (Nat.ofDigitChars 10 digits start, []) := by
  induction digits generalizing start with
  | nil => rfl
  | cons digit digits ih =>
    rw [ofDigitChars_cons] at fits ⊢
    have small : start * 10 + digitValue digit < UInt64.size :=
      Nat.lt_of_le_of_lt (le_ofDigitChars digits _) fits
    rw [absorb, if_pos small]
    exact ih fits

/-- The digits of an integer that fits 64 bits are read as that integer. -/
theorem afterFirstDigit_naturalDigits (negative : Bool) {n : Nat} (fits : n < UInt64.size)
    {first : Char} {others : List Char} (shape : naturalDigits n = first :: others) :
    (afterFirstDigit negative first).run others = (integer negative n).run [] := by
  have value : Nat.ofDigitChars 10 (first :: others) 0 = n := by
    rw [← shape]
    exact Nat.ofDigitChars_ten_toDigits
  have digits : ∀ c ∈ first :: others, c.isDigit = true := fun c member =>
    isDigit_of_mem_naturalDigits (shape ▸ member)
  by_cases zero : first = '0'
  · subst zero
    obtain rfl := eq_zero_of_leading_zero shape
    obtain rfl : others = [] := (List.cons.inj shape).2.symm
    rfl
  · have noDigit : NoDigit [] := fun c none => by cases none
    have allDigits := digitRun_of_digits
      (fun c member => digits c (List.mem_cons_of_mem _ member)) noDigit
    rw [List.append_nil] at allDigits
    have whole : Nat.ofDigitChars 10 others (digitValue first) = n := by
      rw [← value, ofDigitChars_cons, Nat.zero_mul, Nat.zero_add]
    rw [afterFirstDigit, if_neg zero, if_pos (digits first List.mem_cons_self),
      Reader.run_bind_of_ok allDigits, absorb_eq (by rw [whole]; exact fits), whole]
    rfl

/-! ### Integers as they are written -/

namespace NumberText

def ofNatural (n : Nat) : NumberText := ⟨naturalDigits n, isNumber_naturalDigits n⟩

def ofNegative (n : Nat) : NumberText := ⟨'-' :: naturalDigits n, isNumber_negative n⟩

/-- **A natural number that fits 64 bits is read as itself.** -/
theorem value?_ofNatural {n : Nat} (fits : n < UInt64.size) :
    (ofNatural n).value? = some (.natural (UInt64.ofNat n)) := by
  cases shape : naturalDigits n with
  | nil => exact absurd shape Nat.toDigits_ne_nil
  | cons first others =>
    have digit : first.isDigit = true :=
      isDigit_of_mem_naturalDigits (n := n) (shape ▸ List.mem_cons_self)
    have unsigned : first ≠ '-' := by
      rintro rfl
      cases digit
    have start : (ofNatural n).chars = first :: others := shape
    rw [value?_eq start, numeral, if_neg unsigned, afterFirstDigit_naturalDigits false fits shape]
    rfl

/-- **A negative number that fits 64 bits with its sign is read as itself.** -/
theorem value?_ofNegative (below : Fin 0x8000000000000000) :
    (ofNegative (below + 1)).value? = some (.negative below) := by
  have fits : (below : Nat) + 1 < UInt64.size := by
    have small := below.isLt
    simp only [UInt64.size]
    omega
  cases shape : naturalDigits (below + 1) with
  | nil => exact absurd shape Nat.toDigits_ne_nil
  | cons first others =>
    have start : (ofNegative (below + 1)).chars = '-' :: first :: others :=
      congrArg ('-' :: ·) shape
    rw [value?_eq start, numeral, if_pos rfl, Reader.run_next_bind,
      afterFirstDigit_naturalDigits true fits shape, integer, if_pos rfl,
      dif_pos ⟨by omega, below.isLt⟩]
    rfl

end NumberText

end RenderLink.Json
