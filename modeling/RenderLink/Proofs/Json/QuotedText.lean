/-
**Strings as they are written.**

Between its quotation marks a string holds characters that stand for themselves, short escapes, and
codes of four hexadecimal digits. Such a text is read, or passed over, up to its closing quotation
mark; and nothing else is. A code may be half of a surrogate pair, so a string that is passed over
need not have a value; whether it has one depends on its text alone.

* `skipString_run`, `isBody_of_skipString`: what is passed over is a string.
* `stringBody_run`, `isBody_of_stringBody`: what is read is a string.
-/

import RenderLink.Proofs.Json.Reading
import RenderLink.Proofs.Json.StringText

namespace RenderLink.Json

/-! ### The grammar -/

/-- Four hexadecimal digits. -/
def IsCode (digits : List Char) : Prop :=
  digits.length = 4 ∧ ∀ c ∈ digits, (hexValue? c).isSome = true

/-- What may stand between quotation marks. -/
inductive IsBody : List Char → Prop
  | nil : IsBody []
  | plain {c : Char} {body : List Char} (notQuotation : c ≠ '"') (notBackslash : c ≠ '\\')
      (printable : 0x20 ≤ c.toNat) (behind : IsBody body) : IsBody (c :: body)
  | short {sign c : Char} {body : List Char} (known : shortEscape? sign = some c)
      (behind : IsBody body) : IsBody ('\\' :: sign :: body)
  | code {digits body : List Char} (isCode : IsCode digits) (behind : IsBody body) :
      IsBody ('\\' :: 'u' :: (digits ++ body))

/-! ### Codes -/

/-- A code is read, whatever stands behind it. -/
theorem hexCode_of_isCode {digits : List Char} (isCode : IsCode digits) :
    ∃ number, ∀ rest, hexCode.run (digits ++ rest) = .ok (number, rest) := by
  obtain ⟨length, hexadecimal⟩ := isCode
  obtain ⟨a, b, c, d, rfl⟩ : ∃ a b c d, digits = [a, b, c, d] := by
    match digits, length with
    | [a, b, c, d], _ => exact ⟨a, b, c, d, rfl⟩
  obtain ⟨first, firstValue⟩ := Option.isSome_iff_exists.mp (hexadecimal a (by simp))
  obtain ⟨second, secondValue⟩ := Option.isSome_iff_exists.mp (hexadecimal b (by simp))
  obtain ⟨third, thirdValue⟩ := Option.isSome_iff_exists.mp (hexadecimal c (by simp))
  obtain ⟨fourth, fourthValue⟩ := Option.isSome_iff_exists.mp (hexadecimal d (by simp))
  refine ⟨((first * 16 + second) * 16 + third) * 16 + fourth, fun rest => ?_⟩
  simp only [hexCode, List.cons_append, List.nil_append, firstValue, secondValue, thirdValue,
    fourthValue]

/-- What is read as a code is one. -/
theorem isCode_of_hexCode {text rest : List Char} {number : Nat}
    (read : hexCode.run text = .ok (number, rest)) :
    ∃ digits, text = digits ++ rest ∧ IsCode digits := by
  unfold hexCode at read
  dsimp only at read
  split at read
  · next a b c d behind =>
    split at read
    · next first second third fourth =>
      cases read
      exact ⟨[a, b, c, d], rfl, rfl, by simp [first, second, third, fourth]⟩
    · cases read
  · split at read <;> cases read

/-- An escape is a backslash and a word that the reader of escapes takes. -/
def TakesEscapes (escape : Reader Char) : Prop :=
  ∀ {text rest : List Char} {c : Char}, escape.run text = .ok (c, rest) →
    ∃ word, text = word ++ rest ∧ ∀ {body}, IsBody body → IsBody ('\\' :: (word ++ body))

theorem takesEscapes_skippedEscape : TakesEscapes skippedEscape := by
  intro text rest c read
  cases text with
  | nil => cases read
  | cons sign text =>
    rw [skippedEscape, Reader.run_bind_of_ok (Reader.run_next_cons sign text)] at read
    split at read
    · next found known =>
      cases read
      exact ⟨[sign], rfl, fun behind => .short known behind⟩
    · split at read
      · cases read
      · next isCode =>
        obtain rfl := Decidable.not_not.mp isCode
        obtain ⟨number, behind, coded, last⟩ := Reader.run_bind_eq_ok_iff.mp read
        obtain ⟨digits, rfl, isCode⟩ := isCode_of_hexCode coded
        cases last
        exact ⟨'u' :: digits, rfl, fun behind => .code isCode behind⟩

theorem takesEscapes_escapeSequence : TakesEscapes escapeSequence := by
  intro text rest c read
  cases text with
  | nil => cases read
  | cons sign text =>
    rw [escapeSequence, Reader.run_bind_of_ok (Reader.run_next_cons sign text)] at read
    split at read
    · next found known =>
      cases read
      exact ⟨[sign], rfl, fun behind => .short known behind⟩
    · split at read
      · cases read
      · next isCode =>
        obtain rfl := Decidable.not_not.mp isCode
        obtain ⟨number, behind, coded, rest'⟩ := Reader.run_bind_eq_ok_iff.mp read
        obtain ⟨digits, rfl, isCode⟩ := isCode_of_hexCode coded
        split at rest'
        · cases rest'
        · split at rest'
          · obtain ⟨_, between, expected, continued⟩ := Reader.run_bind_eq_ok_iff.mp rest'
            obtain rfl := Reader.eq_of_expect expected
            obtain ⟨low, last, lowCoded, ended⟩ := Reader.run_bind_eq_ok_iff.mp continued
            obtain ⟨others, rfl, lowCode⟩ := isCode_of_hexCode lowCoded
            split at ended
            · obtain ⟨-, rfl⟩ := Reader.run_pure_eq_ok_iff.mp ended
              refine ⟨'u' :: (digits ++ '\\' :: 'u' :: others), by simp, fun behind => ?_⟩
              simpa using IsBody.code isCode (.code lowCode behind)
            · cases ended
          · cases rest'
            exact ⟨'u' :: digits, rfl, fun behind => .code isCode behind⟩

/-- What is taken up to a quotation mark is the body of a string. -/
theorem isBody_of_stringFrom {escape : Reader Char} (takes : TakesEscapes escape)
    {text found rest : List Char} (read : stringFrom escape text = .ok (found, rest)) :
    ∃ body, text = body ++ '"' :: rest ∧ IsBody body := by
  fun_induction stringFrom escape text generalizing found with
  | case1 => cases read
  | case2 =>
    cases read
    exact ⟨[], rfl, .nil⟩
  | case3 => cases read
  | case4 => cases read
  | case5 text first after resolved others last tail differs ih =>
    cases read
    obtain ⟨word, rfl, grows⟩ := takes resolved
    obtain ⟨body, rfl, isBody⟩ := ih tail
    exact ⟨'\\' :: (word ++ body), by simp, grows isBody⟩
  | case6 => cases read
  | case7 => cases read
  | case8 c text unquoted unescaped printable others last tail ih =>
    cases read
    obtain ⟨body, rfl, isBody⟩ := ih tail
    exact ⟨c :: body, rfl, .plain unquoted unescaped (Nat.not_lt.mp printable) isBody⟩

/-- **What is read as a string is one.** -/
theorem isBody_of_stringBody {text found rest : List Char}
    (read : stringBody.run text = .ok (found, rest)) :
    ∃ body, text = body ++ '"' :: rest ∧ IsBody body :=
  isBody_of_stringFrom takesEscapes_escapeSequence read

/-- **What is passed over as a string is one.** -/
theorem isBody_of_skipString {text rest : List Char} {value : Unit}
    (skipped : skipString.run text = .ok (value, rest)) :
    ∃ body, text = body ++ '"' :: rest ∧ IsBody body := by
  unfold skipString at skipped
  dsimp only at skipped
  split at skipped
  · cases skipped
  · next tail =>
    cases skipped
    exact isBody_of_stringFrom takesEscapes_skippedEscape tail

/-! ### Reading and passing over a string -/

/-- A character that stands for itself, and the string behind it. -/
theorem stringFrom_plain {escape : Reader Char} {c : Char} (notQuotation : c ≠ '"')
    (notBackslash : c ≠ '\\') (printable : 0x20 ≤ c.toNat) {text rest : List Char}
    {value : Option (List Char)} (read : stringFrom escape text = answer (kept value) rest) :
    stringFrom escape (c :: text) = answer (kept (value.map (c :: ·))) rest := by
  rw [stringFrom, if_neg notQuotation, if_neg notBackslash, if_neg (Nat.not_lt.mpr printable), read]
  cases value <;> rfl

/-- An escape, and the string behind it. -/
theorem stringFrom_escaped {escape : Reader Char} {c : Char} {text after rest : List Char}
    {value : Option (List Char)} (resolved : escape.run text = .ok (c, after))
    (read : stringFrom escape after = answer (kept value) rest) :
    stringFrom escape ('\\' :: text) = answer (kept (value.map (c :: ·))) rest := by
  rw [stringFrom, if_neg (by decide), if_pos rfl]
  split
  · next failed =>
    rw [resolved] at failed
    cases failed
  · next found =>
    rw [resolved] at found
    cases found
    rw [read]
    cases value <;> rfl

/-- An escape that has no value. -/
theorem stringFrom_unresolved {escape : Reader Char} {text : List Char}
    (failed : escape.run text = .error .notJson) (rest : List Char) :
    stringFrom escape ('\\' :: text) = answer (kept none) rest := by
  rw [stringFrom, if_neg (by decide), if_pos rfl]
  split
  · next found =>
    rw [failed] at found
    cases found
    rfl
  · next found =>
    rw [failed] at found
    cases found

/-- A string that is passed over, up to its closing quotation mark. -/
theorem skippedBody {body : List Char} (isBody : IsBody body) (rest : List Char) :
    ∃ value, stringFrom skippedEscape (body ++ '"' :: rest) = answer (kept (some value)) rest := by
  induction isBody with
  | nil => exact ⟨[], by rw [List.nil_append, stringFrom, if_pos rfl]; rfl⟩
  | plain notQuotation notBackslash printable _ ih =>
    obtain ⟨value, read⟩ := ih
    exact ⟨_, stringFrom_plain notQuotation notBackslash printable read⟩
  | @short sign c body known _ ih =>
    obtain ⟨value, read⟩ := ih
    refine ⟨_, stringFrom_escaped (c := c) ?_ read⟩
    simp [skippedEscape, Reader.run_bind, known]
  | @code digits body isCode _ ih =>
    obtain ⟨value, read⟩ := ih
    obtain ⟨number, coded⟩ := hexCode_of_isCode isCode
    refine ⟨_, stringFrom_escaped (c := '\uFFFD') ?_ read⟩
    simp [skippedEscape, Reader.run_bind, shortEscape?, coded]

/-- **A string is passed over up to its closing quotation mark.** -/
theorem skipString_run {body : List Char} (isBody : IsBody body) (rest : List Char) :
    skipString.run (body ++ '"' :: rest) = .ok ((), rest) := by
  obtain ⟨value, read⟩ := skippedBody isBody rest
  simp only [skipString, read, kept_some, answer_ok]

/-- A high surrogate needs a code behind it: without one, the string has no value. -/
theorem escapeSequence_of_lone {digits body : List Char} {number : Nat}
    (coded : ∀ rest, hexCode.run (digits ++ rest) = .ok (number, rest))
    (notLow : isLowSurrogate number = false) (high : isHighSurrogate number = true)
    (isBody : IsBody body) (lone : ∀ behind, body ≠ '\\' :: 'u' :: behind) (rest : List Char) :
    escapeSequence.run ('u' :: (digits ++ (body ++ '"' :: rest))) = .error .notJson := by
  have unexpected : (Reader.expect ['\\', 'u']).run (body ++ '"' :: rest) = .error .notJson := by
    cases isBody with
    | nil => simp [Reader.expect, Reader.run_bind]
    | plain notQuotation notBackslash printable behind =>
      simp [Reader.expect, Reader.run_bind, notBackslash]
    | @short sign c body known behind =>
      have other : sign ≠ 'u' := fun same => lone body (by rw [same])
      simp [Reader.expect, Reader.run_bind, other]
    | code isCode behind => exact absurd rfl (lone _)
  simp [escapeSequence, Reader.run_bind, shortEscape?, coded, notLow, high, unexpected]

/-- The sign of a code in a body stands before the digits of one. -/
theorem IsBody.exists_code {body : List Char} (isBody : IsBody body)
    (begun : ∃ behind, body = '\\' :: 'u' :: behind) :
    ∃ digits behind, IsCode digits ∧ IsBody behind ∧ body = '\\' :: 'u' :: (digits ++ behind) := by
  obtain ⟨found, rfl⟩ := begun
  generalize same : '\\' :: 'u' :: found = body at isBody
  cases isBody with
  | nil => cases same
  | plain _ notBackslash _ _ => exact absurd (List.cons.inj same).1.symm notBackslash
  | short known behind =>
    obtain ⟨rfl, -⟩ := List.cons.inj (List.cons.inj same).2
    cases known
  | code isCode behind => exact ⟨_, _, isCode, behind, rfl⟩

/-- A string that is read up to its closing quotation mark has a value, or has none, whatever stands
behind it. -/
theorem readBody {body : List Char} (isBody : IsBody body) :
    ∃ value, ∀ rest,
      stringFrom escapeSequence (body ++ '"' :: rest) = answer (kept value) rest := by
  cases isBody with
  | nil => exact ⟨some [], fun rest => by rw [List.nil_append, stringFrom, if_pos rfl]; rfl⟩
  | plain notQuotation notBackslash printable behind =>
    obtain ⟨value, read⟩ := readBody behind
    exact ⟨_, fun rest => stringFrom_plain notQuotation notBackslash printable (read rest)⟩
  | short known behind =>
    obtain ⟨value, read⟩ := readBody behind
    exact ⟨_, fun rest => stringFrom_escaped (escapeSequence_of_short known _) (read rest)⟩
  | @code digits body isCode behind =>
    obtain ⟨number, coded⟩ := hexCode_of_isCode isCode
    cases low : isLowSurrogate number with
    | true =>
      refine ⟨none, fun rest => stringFrom_unresolved ?_ rest⟩
      simp [escapeSequence, Reader.run_bind, shortEscape?, coded, low]
    | false =>
      cases high : isHighSurrogate number with
      | false =>
        obtain ⟨value, read⟩ := readBody behind
        refine ⟨_, fun rest => stringFrom_escaped (c := Char.ofNat number) ?_ (read rest)⟩
        simp [escapeSequence, Reader.run_bind, shortEscape?, coded, low, high]
      | true =>
        by_cases lone : ∀ behind, body ≠ '\\' :: 'u' :: behind
        · refine ⟨none, fun rest => stringFrom_unresolved ?_ rest⟩
          simpa using escapeSequence_of_lone coded low high behind lone rest
        · obtain ⟨others, last, isLowCode, later, rfl⟩ := behind.exists_code (by simpa using lone)
          obtain ⟨second, secondCoded⟩ := hexCode_of_isCode isLowCode
          cases pair : isLowSurrogate second with
          | true =>
            obtain ⟨value, read⟩ := readBody later
            refine ⟨_, fun rest => stringFrom_escaped (c := Char.ofNat
              (0x10000 + (number - 0xD800) * 0x400 + (second - 0xDC00))) ?_ (read rest)⟩
            simp [escapeSequence, Reader.run_bind, shortEscape?, coded, low, high, Reader.expect,
              secondCoded, pair]
          | false =>
            refine ⟨none, fun rest => stringFrom_unresolved ?_ rest⟩
            simp [escapeSequence, Reader.run_bind, shortEscape?, coded, low, high, Reader.expect,
              secondCoded, pair]
termination_by body.length
decreasing_by
  all_goals
    subst_vars
    simp only [List.length_cons, List.length_append]
    omega

/-! ### Strings of a text -/

/-- What stands between the quotation marks of a string. -/
structure StringText where
  chars : List Char
  isBody : IsBody chars

namespace StringText

/-- The string that is meant, if it can be kept. -/
def value? (string : StringText) : Option String :=
  (stringBody.run (string.chars ++ ['"'])).toOption.map fun read => String.ofList read.1

/-- **A string is read as its value.** -/
theorem stringBody_run (string : StringText) (rest : List Char) :
    (stringBody.run (string.chars ++ '"' :: rest)) =
      answer (kept (string.value?.map String.toList)) rest := by
  obtain ⟨value, read⟩ := readBody string.isBody
  have known : string.value?.map String.toList = value := by
    rw [value?]
    show (((stringFrom escapeSequence (string.chars ++ ['"'])).toOption.map
      fun read => String.ofList read.1).map String.toList) = value
    rw [read []]
    cases value <;> simp [Except.toOption]
  rw [known]
  exact read rest

/-- A string that is written out is kept as it is. -/
def ofText (text : String) : StringText where
  chars := text.toList.flatMap escape
  isBody := by
    obtain ⟨body, split, isBody⟩ :=
      isBody_of_stringBody (stringFrom_flatMap_escape text.toList [])
    rwa [List.append_cancel_right split]

@[simp] theorem value?_ofText (text : String) : (ofText text).value? = some text := by
  show (stringFrom escapeSequence (text.toList.flatMap escape ++ ['"'])).toOption.map _ = _
  rw [stringFrom_flatMap_escape]
  simp [Except.toOption]

end StringText

end RenderLink.Json
