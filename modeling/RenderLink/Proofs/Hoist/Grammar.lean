/-
**The grammar of calls.**

A literal is items between two quotation marks of one kind; an item is an escape, which takes one
character along, or a character that is neither a backslash nor the quotation mark. A call is a
callee that stands by itself with a literal in parentheses behind it. What the readers of literals
and calls accept is this grammar.

* `endsLiteral_cons_iff`: one more character keeps to the grammar exactly if the rest does.
* `literal?_eq_some_iff`: **a literal is read exactly where the grammar has one.**
* `IsLiteral.unique`: a text begins with one literal at most.
* `site_eq_some_iff`: **a call is read exactly where the grammar has one.**
-/

import RenderLink.Proofs.Hoist.Leftmost

namespace RenderLink

open Text

/-! ### Literals -/

/-- The items between quotation marks: escapes of one character each, and characters that are
neither a backslash nor the quotation mark. -/
inductive IsQuoted (mark : Char) : List Char → Prop
  | nil : IsQuoted mark []
  | escape (c : Char) {items : List Char} : IsQuoted mark items → IsQuoted mark ('\\' :: c :: items)
  | plain {c : Char} {items : List Char} : c ≠ '\\' → c ≠ mark → IsQuoted mark items →
      IsQuoted mark (c :: items)

/-- A literal: items between two quotation marks of one kind. -/
def IsLiteral (literal : List Char) : Prop :=
  ∃ mark items, (mark = '"' ∨ mark = '\x27') ∧ IsQuoted mark items ∧
    literal = mark :: items ++ [mark]

/-- What ends a literal, from the state of its reader on. -/
inductive EndsLiteral (mark : Char) : LiteralState → List Char → Prop
  | closed : EndsLiteral mark .closed []
  | inside {items : List Char} : IsQuoted mark items → EndsLiteral mark .inside (items ++ [mark])
  | escaped (c : Char) {items : List Char} : IsQuoted mark items →
      EndsLiteral mark .escaped (c :: items ++ [mark])

variable {mark c : Char} {state : LiteralState} {text body rest : List Char}

/-- One more character keeps to the grammar exactly if the rest does, in the state behind it. -/
theorem endsLiteral_cons_iff (apart : mark ≠ '\\') (opened : state ≠ .closed) :
    EndsLiteral mark state (c :: body) ↔ EndsLiteral mark (state.step mark c) body := by
  constructor
  · generalize whole : c :: body = text
    rintro (_ | quoted | ⟨d, quoted⟩)
    · cases whole
    · cases quoted with
      | nil =>
        obtain ⟨rfl, rfl⟩ := List.cons.inj whole
        simpa [LiteralState.step, apart] using EndsLiteral.closed
      | escape d quoted =>
        obtain ⟨rfl, rfl⟩ := List.cons.inj whole
        exact .escaped d quoted
      | plain backslash quotation quoted =>
        obtain ⟨rfl, rfl⟩ := List.cons.inj whole
        simpa [LiteralState.step, backslash, quotation] using EndsLiteral.inside quoted
    · obtain ⟨rfl, rfl⟩ := List.cons.inj whole
      exact .inside quoted
  · intro ends
    cases state with
    | closed => exact absurd rfl opened
    | escaped =>
      generalize behind : LiteralState.escaped.step mark c = next at ends
      cases ends with
      | inside quoted => exact .escaped c quoted
      | _ => cases behind
    | inside =>
      simp only [LiteralState.step] at ends
      split at ends
      · next backslash =>
        cases ends with
        | escaped d quoted => exact backslash ▸ .inside (.escape d quoted)
      · next backslash =>
        split at ends
        · next quotation =>
          cases ends
          exact quotation ▸ .inside .nil
        · next quotation =>
          cases ends with
          | inside quoted => exact .inside (.plain backslash quotation quoted)

theorem endsLiteral_closed_iff : EndsLiteral mark .closed body ↔ body = [] := by
  constructor
  · rintro ⟨⟩
    rfl
  · rintro rfl
    exact .closed

theorem EndsLiteral.ne_nil (ends : EndsLiteral mark state body) (opened : state ≠ .closed) :
    body ≠ [] := by
  cases ends with
  | closed => exact absurd rfl opened
  | inside => simp
  | escaped => simp

theorem literalFrom?_closed (mark : Char) (text : List Char) :
    literalFrom? mark .closed text = some ([], text) := by
  rw [literalFrom?]

theorem literalFrom?_nil (opened : state ≠ .closed) : literalFrom? mark state [] = none := by
  cases state with
  | closed => exact absurd rfl opened
  | inside => rfl
  | escaped => rfl

theorem literalFrom?_cons (opened : state ≠ .closed) :
    literalFrom? mark state (c :: text) =
      (literalFrom? mark (state.step mark c) text).map fun (body, rest) => (c :: body, rest) := by
  cases state with
  | closed => exact absurd rfl opened
  | inside => rfl
  | escaped => rfl

theorem literalFrom?_closed_iff :
    literalFrom? mark .closed text = some (body, rest) ↔
      EndsLiteral mark .closed body ∧ text = body ++ rest := by
  rw [literalFrom?_closed, endsLiteral_closed_iff]
  constructor
  · rintro ⟨⟩
    exact ⟨rfl, rfl⟩
  · rintro ⟨rfl, rfl⟩
    rfl

/-- A reader reads what ends a literal, whatever stands behind it. -/
theorem literalFrom?_eq_some_iff (apart : mark ≠ '\\') :
    literalFrom? mark state text = some (body, rest) ↔
      EndsLiteral mark state body ∧ text = body ++ rest := by
  induction text generalizing state body with
  | nil =>
    by_cases closed : state = .closed
    · exact closed ▸ literalFrom?_closed_iff
    · rw [literalFrom?_nil closed]
      refine ⟨nofun, fun ⟨ends, empty⟩ => ?_⟩
      exact absurd (List.append_eq_nil_iff.1 empty.symm).1 (ends.ne_nil closed)
  | cons c text ih =>
    by_cases closed : state = .closed
    · exact closed ▸ literalFrom?_closed_iff
    · rw [literalFrom?_cons closed, Option.map_eq_some_iff]
      constructor
      · rintro ⟨⟨body, rest⟩, found, ⟨⟩⟩
        obtain ⟨ends, rfl⟩ := ih.1 found
        exact ⟨(endsLiteral_cons_iff apart closed).2 ends, rfl⟩
      · rintro ⟨ends, whole⟩
        obtain ⟨d, body, rfl⟩ := List.exists_cons_of_ne_nil (ends.ne_nil closed)
        obtain ⟨rfl, rfl⟩ := List.cons.inj whole
        exact ⟨(body, rest), ih.2 ⟨(endsLiteral_cons_iff apart closed).1 ends, rfl⟩, rfl⟩

theorem isQuotationMark_iff : isQuotationMark c = true ↔ c = '"' ∨ c = '\x27' := by
  simp [isQuotationMark]

/-- A text begins with a literal as the grammar has it. -/
theorem literal?_eq_some_iff {literal : List Char} :
    literal? text = some (literal, rest) ↔ IsLiteral literal ∧ text = literal ++ rest := by
  constructor
  · intro found
    refine ⟨?_, (literal?_eq found).symm⟩
    cases text with
    | nil => cases found
    | cons mark text =>
      rw [literal?] at found
      split at found
      · next quotation =>
        obtain ⟨⟨body, rest'⟩, inner, same⟩ := Option.map_eq_some_iff.1 found
        cases same
        have kinds := isQuotationMark_iff.1 quotation
        have apart : mark ≠ '\\' := by rcases kinds with rfl | rfl <;> decide
        cases ((literalFrom?_eq_some_iff apart).1 inner).1 with
        | inside quoted => exact ⟨mark, _, kinds, quoted, rfl⟩
      · cases found
  · rintro ⟨⟨mark, items, kinds, quoted, rfl⟩, rfl⟩
    have apart : mark ≠ '\\' := by rcases kinds with rfl | rfl <;> decide
    have inner : literalFrom? mark .inside (items ++ [mark] ++ rest) =
        some (items ++ [mark], rest) :=
      (literalFrom?_eq_some_iff apart).2 ⟨.inside quoted, rfl⟩
    rw [List.cons_append, List.cons_append, literal?, if_pos (isQuotationMark_iff.2 kinds), inner]
    rfl

/-- A text begins with one literal at most. -/
theorem IsLiteral.unique {literal after literal' after' : List Char} (first : IsLiteral literal)
    (second : IsLiteral literal') (same : literal ++ after = literal' ++ after') :
    literal = literal' := by
  have read : literal? (literal ++ after) = some (literal, after) :=
    literal?_eq_some_iff.2 ⟨first, rfl⟩
  rw [same, literal?_eq_some_iff.2 ⟨second, rfl⟩] at read
  exact (Prod.mk.inj (Option.some_inj.1 read)).1.symm

/-! ### Calls -/

/-- A text begins with a call as the grammar has it. -/
theorem call?_eq_some_iff {callee literal : List Char} :
    call? callee text = some (literal, rest) ↔
      IsLiteral literal ∧ text = callText callee literal ++ rest := by
  constructor
  · intro found
    refine ⟨?_, (call?_eq found).symm⟩
    simp only [call?, Option.bind_eq_bind, Option.bind_eq_some_iff, Option.pure_def,
      Option.some.injEq, Prod.mk.injEq, Prod.exists] at found
    obtain ⟨_, _, _, _, _, _, quoted, _, _, rfl, -⟩ := found
    exact (literal?_eq_some_iff.1 quoted).1
  · rintro ⟨isLiteral, rfl⟩
    have arguments : afterWord? callee (callText callee literal ++ rest) =
        some ('(' :: (literal ++ ')' :: rest)) := by
      rw [afterWord?_eq_some_iff]
      simp [callText]
    have quoted : literal? (literal ++ ')' :: rest) = some (literal, ')' :: rest) :=
      literal?_eq_some_iff.2 ⟨isLiteral, rfl⟩
    simp [call?, arguments, afterWord?, quoted]

/-- A call site between two texts, as the grammar of calls has it: the callee stands by itself, and
behind it stands a literal in parentheses. -/
structure IsCallAt (callee before rest : List Char) (site : CallSite) : Prop where
  separate : before.getLast?.any continuesName = false
  isLiteral : IsLiteral site.literal
  text : ∃ after, rest = callee ++ '(' :: site.literal ++ ')' :: after
  start : site.start = byteLength before
  stop : site.stop = byteLength (before ++ (callee ++ '(' :: site.literal ++ [')']))

theorem callText_append (callee literal after : List Char) :
    callText callee literal ++ after = callee ++ '(' :: literal ++ ')' :: after := by
  simp [callText]

/-- What is read as a call on characters is what the grammar has. -/
theorem site_eq_some_iff {callee before rest : List Char} {site : CallSite} :
    ((Cursor.between before rest).call? callee).map
        (fun (literal, _) => (Cursor.between before rest).site callee literal) = some site ↔
      IsCallAt callee before rest site := by
  constructor
  · intro found
    obtain ⟨⟨literal, after⟩, called, rfl⟩ := Option.map_eq_some_iff.1 found
    obtain ⟨separate, text⟩ := Cursor.call?_between called
    rw [Cursor.call?, if_neg (by simp [Cursor.between, separate]), call?_eq_some_iff] at called
    exact ⟨separate, called.1, ⟨after, text.trans (callText_append ..)⟩, rfl,
      Cursor.site_stop ..⟩
  · rintro ⟨separate, isLiteral, ⟨after, text⟩, start, stop⟩
    have called : (Cursor.between before rest).call? callee = some (site.literal, after) := by
      rw [Cursor.call?, if_neg (by simp [Cursor.between, separate]), call?_eq_some_iff]
      exact ⟨isLiteral, text.trans (callText_append ..).symm⟩
    obtain ⟨first, last, literal⟩ := site
    simp only at start stop
    rw [called, start, stop.trans (Cursor.site_stop callee before rest literal).symm]
    rfl

end RenderLink
