/-
**Strings are read back.**

A character of a string is written in one of three ways: as it is, by a short escape, or by its
code (`escape_cases`). Each of them is read as that character and leaves what stands behind it, so a
string that was written is read as the same string.

* `stringFrom_escape`: what is written for a character is read as that character.
* `parse_toText_string`: **the text of a string is read as that string.**
-/

import RenderLink.Json.Decode
import RenderLink.Json.Printer

namespace RenderLink.Json

/-! ### What is written for a character -/

/-- A character is written as it is, by a short escape, or by its code. -/
theorem escape_cases (c : Char) :
    (escape c = [c] ∧ c ≠ '"' ∧ c ≠ '\\' ∧ 0x20 ≤ c.toNat) ∨
      (∃ sign, escape c = ['\\', sign] ∧ shortEscape? sign = some c) ∨
      (escape c = ['\\', 'u', '0', '0', hexDigit (c.toNat / 16), hexDigit c.toNat] ∧
        c.toNat < 0x20) := by
  have named : ∀ {n : Nat}, c.toNat = n → Char.ofNat n = c := by
    rintro n rfl
    exact Char.ofNat_toNat c
  by_cases quotation : c = '"'
  · exact Or.inr (Or.inl ⟨'"', by simp [escape, quotation], by rw [quotation]; rfl⟩)
  by_cases backslash : c = '\\'
  · exact Or.inr (Or.inl ⟨'\\', by simp [escape, backslash], by rw [backslash]; rfl⟩)
  by_cases printable : 0x20 ≤ c.toNat
  · exact Or.inl ⟨escape_of_plain quotation backslash printable, quotation, backslash, printable⟩
  refine Or.inr ?_
  by_cases backspace : c.toNat = 8
  · refine Or.inl ⟨'b', by simp [escape, quotation, backslash, backspace], ?_⟩
    rw [← named backspace]
    rfl
  by_cases tab : c = '\t'
  · exact Or.inl ⟨'t', by simp [escape, tab], by rw [tab]; rfl⟩
  by_cases newline : c = '\n'
  · exact Or.inl ⟨'n', by simp [escape, newline], by rw [newline]; rfl⟩
  by_cases feed : c.toNat = 12
  · refine Or.inl ⟨'f', by simp [escape, quotation, backslash, tab, newline, feed], ?_⟩
    rw [← named feed]
    rfl
  by_cases carriage : c = '\r'
  · exact Or.inl ⟨'r', by simp [escape, carriage], by rw [carriage]; rfl⟩
  have control : c.toNat < 0x20 := Nat.lt_of_not_le printable
  refine Or.inr ⟨?_, control⟩
  simp [escape, quotation, backslash, backspace, tab, newline, feed, carriage, control]

theorem escape_ne_nil (c : Char) : escape c ≠ [] := by
  rcases escape_cases c with ⟨plain, -⟩ | ⟨sign, short, -⟩ | ⟨code, -⟩
  · simp [plain]
  · simp [short]
  · simp [code]

/-- A string is shorter than its text. -/
theorem length_lt_renderString (text : List Char) : text.length < (renderString text).length := by
  have kept : text.length ≤ (text.flatMap escape).length := by
    induction text with
    | nil => exact Nat.zero_le _
    | cons c rest ih =>
      have some := List.length_pos_iff.mpr (escape_ne_nil c)
      rw [List.flatMap_cons, List.length_append, List.length_cons]
      omega
  rw [renderString, List.length_append, List.length_cons]
  omega

/-! ### Reading a character back -/

theorem hexValue?_digitChar : ∀ n < 16, hexValue? (Nat.digitChar n) = some n := by
  decide

theorem hexValue?_hexDigit (n : Nat) : hexValue? (hexDigit n) = some (n % 16) :=
  hexValue?_digitChar _ (Nat.mod_lt _ (by decide))

theorem hexCode_of_small {code : Nat} (small : code < 256) (rest : List Char) :
    hexCode.run ('0' :: '0' :: hexDigit (code / 16) :: hexDigit code :: rest) =
      .ok (code, rest) := by
  have zero : hexValue? '0' = some 0 := rfl
  have value : (code / 16 % 16) * 16 + code % 16 = code := by omega
  simp [hexCode, zero, hexValue?_hexDigit, value]

theorem escapeSequence_of_short {sign c : Char} (short : shortEscape? sign = some c)
    (rest : List Char) : escapeSequence.run (sign :: rest) = .ok (c, rest) := by
  simp [escapeSequence, Reader.run_bind, Reader.next, short]

theorem escapeSequence_of_code {code : Nat} (small : code < 256) (rest : List Char) :
    escapeSequence.run ('u' :: '0' :: '0' :: hexDigit (code / 16) :: hexDigit code :: rest) =
      .ok (Char.ofNat code, rest) := by
  have long : shortEscape? 'u' = none := rfl
  have notLow : isLowSurrogate code = false := by simp [isLowSurrogate]; omega
  have notHigh : isHighSurrogate code = false := by simp [isHighSurrogate]; omega
  simp [escapeSequence, Reader.run_bind, Reader.next, long, hexCode_of_small small, notLow, notHigh]

/-- An escape and the string behind it. -/
theorem stringFrom_backslash {sequence : Reader Char} {c : Char}
    {text after others rest : List Char}
    (resolved : sequence.run text = .ok (c, after))
    (read : stringFrom sequence after = .ok (others, rest)) :
    stringFrom sequence ('\\' :: text) = .ok (c :: others, rest) := by
  rw [stringFrom, if_neg (by decide), if_pos rfl]
  split
  · next failed =>
    rw [resolved] at failed
    cases failed
  · next found =>
    rw [resolved] at found
    cases found
    rw [read]

/-- **What is written for a character is read as that character.** -/
theorem stringFrom_escape (c : Char) {text others rest : List Char}
    (read : stringFrom escapeSequence text = .ok (others, rest)) :
    stringFrom escapeSequence (escape c ++ text) = .ok (c :: others, rest) := by
  rcases escape_cases c with ⟨shape, quotation, backslash, printable⟩ | ⟨sign, shape, short⟩ |
    ⟨shape, control⟩
  · rw [shape, List.singleton_append, stringFrom, if_neg quotation, if_neg backslash,
      if_neg (by omega), read]
  · rw [shape]
    exact stringFrom_backslash (escapeSequence_of_short short text) read
  · have resolved := escapeSequence_of_code (show c.toNat < 256 by omega) text
    rw [Char.ofNat_toNat] at resolved
    rw [shape]
    exact stringFrom_backslash resolved read

/-! ### Reading a string back -/

theorem stringFrom_flatMap_escape (text rest : List Char) :
    stringFrom escapeSequence (text.flatMap escape ++ '"' :: rest) = .ok (text, rest) := by
  induction text with
  | nil => rw [List.flatMap_nil, List.nil_append, stringFrom, if_pos rfl]
  | cons c text ih =>
    rw [List.flatMap_cons, List.append_assoc]
    exact stringFrom_escape c ih

theorem value_of_quotation (levels : Nat) {text found rest : List Char}
    (read : stringFrom escapeSequence text = .ok (found, rest)) :
    (Decoder.value levels '"').run text = .ok (.string (String.ofList found), rest) := by
  rw [Decoder.value.eq_def]
  simp [Reader.run_bind, stringBody, read]

/-- **The text of a string is read as that string.** -/
theorem parse_toText_string (text : String) :
    parse (Json.string text).toText = .ok (.string text) := by
  refine decode_eq_ok_iff.mpr ⟨[], ?_, rfl⟩
  have body := stringFrom_flatMap_escape text.toList []
  have start : Reader.isSpace '"' = false := rfl
  simp [toText, render, renderString, Decoder.read, Reader.run_bind, Reader.space, Reader.next,
    start, value_of_quotation nestingLimit body]

/-- Different strings have different texts. -/
theorem toText_string_injective : Function.Injective fun text => (Json.string text).toText := by
  intro first second same
  have read := parse_toText_string first
  rw [show (Json.string first).toText = _ from same, parse_toText_string second] at read
  injection read with read
  injection read with read
  exact read.symm

end RenderLink.Json
