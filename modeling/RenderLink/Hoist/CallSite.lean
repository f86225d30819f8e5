/-
**Call sites of dynamic references.**

A call site is the callee, an opening parenthesis, a quoted literal and a closing parenthesis, where
the callee is not the end of a longer name or of a member access. The next call site is found by
jumping from one occurrence of the callee to the next.

* `call?_eq`: a text that begins with a call is the text of the call and the text behind it.
* `nextFrom_shorter`: a call site that is found leaves less text.
-/

import RenderLink.Hoist.Literal
import RenderLink.Text.Alphanumeric
import RenderLink.Text.Utf8
import RenderLink.Text.Word

namespace RenderLink

open Text

/-! ### Calls -/

/-- The literal of a call that the text begins with, and the text behind the call. -/
def call? (callee text : List Char) : Option (List Char × List Char) := do
  let arguments ← afterWord? callee text
  let (literal, closing) ← literal? (← afterWord? ['('] arguments)
  let rest ← afterWord? [')'] closing
  return (literal, rest)

def callText (callee literal : List Char) : List Char :=
  callee ++ '(' :: literal ++ [')']

/-- A text that begins with a call is the text of the call and the text behind it. -/
theorem call?_eq {callee text literal rest : List Char}
    (found : call? callee text = some (literal, rest)) :
    callText callee literal ++ rest = text := by
  simp only [call?, Option.bind_eq_bind, Option.bind_eq_some_iff, Option.pure_def,
    Option.some.injEq, Prod.mk.injEq, Prod.exists] at found
  obtain ⟨arguments, called, opened, parenthesis, literal', closing, quoted, rest', closed,
    rfl, rfl⟩ := found
  rw [afterWord?_eq_some_iff] at called parenthesis closed
  rw [called, parenthesis, ← literal?_eq quoted, closed]
  simp [callText]

/-- Whether a character makes a callee behind it part of a longer name or of a member access. -/
def continuesName (c : Char) : Bool :=
  isAlphanumeric c || c = '_' || c = '$' || c = '.'

/-! ### The next call site -/

/-- A place in a source. -/
structure Cursor where
  /-- The character before the place. -/
  previous : Option Char := none
  /-- The number of bytes before the place. -/
  offset : Nat := 0
  /-- The text from the place on. -/
  rest : List Char

/-- The place behind some text, with what follows it. -/
def Cursor.over (cursor : Cursor) (taken rest : List Char) : Cursor :=
  ⟨taken.getLast?.or cursor.previous, cursor.offset + byteLength taken, rest⟩

/-- A call site: its bytes from `start` up to `stop`, and its literal with the quotation marks. -/
structure CallSite where
  start : Nat
  stop : Nat
  literal : List Char
  deriving DecidableEq, Repr

/-- A call site with the text between the place where the search began and the call site. -/
structure Occurrence where
  gap : List Char
  site : CallSite
  deriving DecidableEq, Repr

/-- The call of a callee at a place, if the callee stands there by itself. -/
def Cursor.call? (callee : List Char) (cursor : Cursor) : Option (List Char × List Char) :=
  if cursor.previous.any continuesName then none else RenderLink.call? callee cursor.rest

/-- The call site that a call at a place is. -/
def Cursor.site (callee : List Char) (cursor : Cursor) (literal : List Char) : CallSite :=
  { start := cursor.offset
    stop := cursor.offset + (byteLength callee + byteLength literal + 2)
    literal }

/-- The next call site from a place on, and the place behind it. A callee that is not called is
passed over by its first character. -/
def nextFrom (callee : List Char) (cursor : Cursor) : Option (Occurrence × Cursor) :=
  match _split : splitAtWord callee cursor.rest with
  | none => none
  | some (_, []) => none
  | some (gap, c :: text) =>
    let place := cursor.over gap (c :: text)
    match place.call? callee with
    | some (literal, rest) =>
      some (⟨gap, place.site callee literal⟩, place.over (callText callee literal) rest)
    | none =>
      (nextFrom callee (place.over [c] text)).map fun (occurrence, after) =>
        ({ occurrence with gap := gap ++ c :: occurrence.gap }, after)
termination_by cursor.rest.length
decreasing_by
  have whole := splitAtWord_eq _split
  simp only [Cursor.over, ← whole, List.length_append, List.length_cons]
  omega

/-- A call site that is found leaves less text. -/
theorem nextFrom_shorter {callee : List Char} {cursor after : Cursor} {occurrence : Occurrence}
    (found : nextFrom callee cursor = some (occurrence, after)) :
    after.rest.length < cursor.rest.length := by
  fun_induction nextFrom callee cursor generalizing occurrence after with
  | case1 => cases found
  | case2 => cases found
  | case3 cursor gap c text split place literal rest =>
    rename_i called
    cases found
    have whole := splitAtWord_eq split
    simp only [Cursor.call?] at called
    split at called
    · cases called
    · have parts := congrArg List.length (call?_eq called)
      simp only [callText, place, Cursor.over, List.length_append, List.length_cons] at parts
      simp only [Cursor.over, ← whole, List.length_append, List.length_cons]
      omega
  | case4 cursor gap c text split place uncalled =>
    rename_i ih
    obtain ⟨⟨occurrence', after'⟩, later, equal⟩ := Option.map_eq_some_iff.mp found
    cases equal
    have whole := splitAtWord_eq split
    have shorter := ih later
    simp only [Cursor.over] at shorter
    simp only [← whole, List.length_append, List.length_cons]
    omega

end RenderLink
