/-
**Quoted literals.**

A literal is a text between two quotation marks of one kind, where a backslash takes the character
behind it along. It is kept as it is written, with its marks.

* `literal?_eq`: a literal and the text behind it are the whole.
-/

namespace RenderLink

/-- Whether a character is one of the two quotation marks. -/
def isQuotationMark (c : Char) : Bool := c = '"' || c = '\x27'

/-- Where a reader of a literal stands behind its opening quotation mark. -/
inductive LiteralState where
  | inside
  | escaped
  | closed
  deriving DecidableEq, Repr

/-- The state after one more character. -/
def LiteralState.step (mark c : Char) : LiteralState → LiteralState
  | .escaped => .inside
  | .inside => if c = '\\' then .escaped else if c = mark then .closed else .inside
  | .closed => .closed

/-- The rest of a literal with its closing quotation mark, and the text behind it. -/
def literalFrom? (mark : Char) : LiteralState → List Char → Option (List Char × List Char)
  | .closed, text => some ([], text)
  | .inside, [] => none
  | .escaped, [] => none
  | .inside, c :: text =>
    (literalFrom? mark (LiteralState.inside.step mark c) text).map fun (body, rest) =>
      (c :: body, rest)
  | .escaped, c :: text =>
    (literalFrom? mark (LiteralState.escaped.step mark c) text).map fun (body, rest) =>
      (c :: body, rest)

/-- A literal with its quotation marks, and the text behind it. -/
def literal? : List Char → Option (List Char × List Char)
  | [] => none
  | mark :: text =>
    if isQuotationMark mark then
      (literalFrom? mark .inside text).map fun (body, rest) => (mark :: body, rest)
    else none

/-- The rest of a literal and the text behind it are the whole. -/
theorem literalFrom?_eq {mark : Char} {state : LiteralState} {text body rest : List Char}
    (found : literalFrom? mark state text = some (body, rest)) : body ++ rest = text := by
  induction text generalizing state body with
  | nil => cases state <;> simp_all [literalFrom?]
  | cons c text ih =>
    cases state with
    | closed => simp_all [literalFrom?]
    | inside =>
      obtain ⟨⟨body', rest'⟩, tail, equal⟩ := Option.map_eq_some_iff.mp found
      cases equal
      simp [ih tail]
    | escaped =>
      obtain ⟨⟨body', rest'⟩, tail, equal⟩ := Option.map_eq_some_iff.mp found
      cases equal
      simp [ih tail]

/-- A literal and the text behind it are the whole. -/
theorem literal?_eq {text literal rest : List Char} (found : literal? text = some (literal, rest)) :
    literal ++ rest = text := by
  cases text with
  | nil => cases found
  | cons mark text =>
    simp only [literal?] at found
    split at found
    · obtain ⟨⟨body, rest'⟩, tail, equal⟩ := Option.map_eq_some_iff.mp found
      cases equal
      simp [literalFrom?_eq tail]
    · cases found

end RenderLink
