/-
**Decoders of values and records.**

A decoder reads a value of one type straight from the text and stops at the first problem, whether
it is one of grammar or of shape. A value of the wrong shape is read whole if it is a word, a number
or a string, and judged by its opening bracket otherwise. Brackets nest up to a limit, which is the
measure of `value`.

* `decode_eq_ok_iff`: a text is decoded when a value and space are all it holds.
-/

import RenderLink.Json.Skip

namespace RenderLink.Json

/-- The number of brackets that can stand inside one another. -/
def nestingLimit : Nat := 127

namespace Decoder

variable {α σ : Type}

/-- Enters a bracket, with one level of nesting fewer inside. -/
def nested (levels : Nat) (inside : Nat → Reader α) : Reader α :=
  match levels with
  | 0 => Reader.fail .notJson
  | inner + 1 => inside inner

/-! ### Values -/

/-- A value of any kind, with a number of levels of nesting left. -/
def value (levels : Nat) : Decoder Json := fun head => do
  if head = 'n' then
    Reader.expect ['u', 'l', 'l']
    pure .null
  else if head = 't' then
    Reader.expect ['r', 'u', 'e']
    pure (.bool true)
  else if head = 'f' then
    Reader.expect ['a', 'l', 's', 'e']
    pure (.bool false)
  else if head = '-' ∨ head.isDigit then
    let found ← numeral head
    pure (.number found)
  else if head = '"' then
    let text ← stringBody
    pure (.string (String.ofList text))
  else if head = '[' then
    match levels with
    | 0 => Reader.fail .notJson
    | inner + 1 =>
      let items ← elements (value inner)
      closeList
      pure (.list items)
  else if head = '\x7b' then
    match levels with
    | 0 => Reader.fail .notJson
    | inner + 1 =>
      let reversed ← members
        (fun done key => .ok ((value inner).map fun found => (key, found) :: done)) []
      closeObject
      pure (.object reversed.reverse)
  else Reader.fail .notJson

/-- Reports a value of the wrong kind. -/
def mismatch (expected : Expected) : Decoder α := fun head => do
  let wrong (found : Found) : Reader α := Reader.fail (.wrongType found expected)
  if head = 'n' then
    Reader.expect ['u', 'l', 'l']
    wrong .null
  else if head = 't' then
    Reader.expect ['r', 'u', 'e']
    wrong (.boolean true)
  else if head = 'f' then
    Reader.expect ['a', 'l', 's', 'e']
    wrong (.boolean false)
  else if head = '-' ∨ head.isDigit then
    let found ← numeral head
    wrong (.number found)
  else if head = '"' then
    let text ← stringBody
    wrong (.string (String.ofList text))
  else if head = '[' then wrong .list
  else if head = '\x7b' then wrong .object
  else Reader.fail .notJson

/-- A truth value. -/
def boolean : Decoder Bool := fun head => do
  if head = 't' then
    Reader.expect ['r', 'u', 'e']
    pure true
  else if head = 'f' then
    Reader.expect ['a', 'l', 's', 'e']
    pure false
  else mismatch .boolean head

/-- A string. -/
def text : Decoder String := fun head => do
  if head = '"' then
    let found ← stringBody
    pure (String.ofList found)
  else mismatch .string head

/-- Null or a value. -/
def optional (decoder : Decoder α) : Decoder (Option α) := fun head => do
  if head = 'n' then
    Reader.expect ['u', 'l', 'l']
    pure none
  else
    let found ← decoder head
    pure (some found)

/-- A list of values. -/
def listOf (levels : Nat) (decoder : Nat → Decoder α) : Decoder (List α) := fun head => do
  if head = '[' then
    nested levels fun inner => do
      let found ← elements (decoder inner)
      closeList
      pure found
  else mismatch .list head

/-- The next element of a list of fixed length, whose place is given by the number before it. -/
def requiredElement (decoder : Decoder α) (place : Nat) (expected : Expected) : Reader α := do
  match ← element? decoder (place = 0) with
  | some found => pure found
  | none => Reader.fail (.wrongLength place expected)

/-- A list of two strings. -/
def pairOfTexts (levels : Nat) : Decoder (String × String) := fun head => do
  if head = '[' then
    nested levels fun _ => do
      let first ← requiredElement text 0 .pair
      let second ← requiredElement text 1 .pair
      closeList
      pure (first, second)
  else mismatch .pair head

/-- A value of one of several shapes. It is read whole before its shape is looked at. -/
def choice (name : String) (levels : Nat) (shape? : Json → Option α) : Decoder α := fun head => do
  let found ← value levels head
  match shape? found with
  | some shaped => pure shaped
  | none => Reader.fail (.noVariant name)

/-! ### Records -/

/-- A record written as an object: its members are read into a state, and the state is finished. -/
def object (name : String) (levels : Nat) (fields : Nat → Fields σ) (start : σ)
    (finish : σ → Except ReadError α) : Decoder α := fun head => do
  if head = '\x7b' then
    nested levels fun inner => do
      let final ← members (fields inner) start
      let found ← Reader.ofExcept (finish final)
      closeObject
      pure found
  else mismatch (.record name) head

/-- A record written as an object, or as the list of its fields. -/
def objectOrList (name : String) (levels : Nat) (fields : Nat → Fields σ) (start : σ)
    (finish : σ → Except ReadError α) (list : Nat → Reader α) : Decoder α := fun head => do
  if head = '[' then
    nested levels fun inner => do
      let found ← list inner
      closeList
      pure found
  else object name levels fields start finish head

def field (name : String) (earlier : Option α) (decoder : Decoder α) (store : α → σ) :
    Except ReadError (Decoder σ) :=
  match earlier with
  | some _ => .error (.duplicateField name)
  | none => .ok (decoder.map store)

/-- Passes over the value of a key that is no field. -/
def unknownField (state : σ) : Except ReadError (Decoder σ) :=
  .ok (skipValue.map fun _ => state)

/-- The value of a field that must stand in an object. -/
def required (name : String) : Option α → Except ReadError α
  | some found => .ok found
  | none => .error (.missingField name)

end Decoder

/-! ### Texts -/

variable {α : Type}

/-- Decodes a whole text, which holds nothing but a value and space. -/
def decode (decoder : Decoder α) (source : String) : Except ReadError α :=
  match decoder.read.run source.toList with
  | .error error => .error error
  | .ok (found, rest) => if rest.all Reader.isSpace then .ok found else .error .notJson

/-- A text is decoded when a value and space are all it holds. -/
theorem decode_eq_ok_iff {decoder : Decoder α} {source : String} {found : α} :
    decode decoder source = .ok found ↔
      ∃ rest, decoder.read.run source.toList = .ok (found, rest) ∧
        rest.all Reader.isSpace = true := by
  unfold decode
  constructor
  · intro decoded
    split at decoded
    · cases decoded
    · next first rest read =>
      split at decoded
      · next spaces => cases decoded; exact ⟨rest, read, spaces⟩
      · cases decoded
  · rintro ⟨rest, read, spaces⟩
    simp [read, spaces]

/-- The value of any JSON text. -/
def parse (source : String) : Except ReadError Json := decode (Decoder.value nestingLimit) source

end RenderLink.Json
