/-
**Lists and objects.**

The elements of a list and the members of an object are read one after another up to the closing
bracket. The members of an object are folded into a state: for each key the state says how to read
the value, or that the key is an error, before the value is looked at.

* `elementsFrom_notLonger`, `membersFrom_notLonger`: neither makes the text longer.
-/

import RenderLink.Json.StringBody

namespace RenderLink.Json

variable {α σ : Type}

/-! ### Lists -/

/-- Goes to the next element of a list and says whether there is one. -/
def beforeElement (first : Bool) : Reader Bool := do
  Reader.space
  match ← Reader.peek? with
  | none => Reader.fail .endOfText
  | some ']' => pure false
  | some ',' =>
    if first then pure true
    else
      let _ ← Reader.next
      Reader.space
      match ← Reader.peek? with
      | none => Reader.fail .endOfText
      | some ']' => Reader.fail .notJson
      | some _ => pure true
  | some _ => if first then pure true else Reader.fail .notJson

/-- The next element of a list, if there is one. -/
def element? (decoder : Decoder α) (first : Bool) : Reader (Option α) := do
  if ← beforeElement first then
    let value ← decoder.read
    pure (some value)
  else pure none

def closeList : Reader Unit := do
  Reader.space
  Reader.expect [']']

/-- The elements of a list up to its closing bracket. -/
def elementsFrom (decoder : Decoder α) (first : Bool) (text : List Char) : Reading (List α) :=
  match _reached : (beforeElement first).run text with
  | .error error => .error error
  | .ok (false, rest) => .ok ([], rest)
  | .ok (true, rest) =>
    match _element : decoder.read.run rest with
    | .error error => .error error
    | .ok (value, after) =>
      match elementsFrom decoder false after with
      | .error error => .error error
      | .ok (values, last) => .ok (value :: values, last)
termination_by text.length
decreasing_by
  have kept := (beforeElement first).notLonger _reached
  have shorter := decoder.read_shorter _element
  omega

/-- Reading elements never makes the text longer. -/
theorem elementsFrom_notLonger (decoder : Decoder α) {first : Bool} {text rest : List Char}
    {values : List α} (read : elementsFrom decoder first text = .ok (values, rest)) :
    rest.length ≤ text.length := by
  fun_induction elementsFrom decoder first text generalizing values with
  | case1 => cases read
  | case2 first text rest reached =>
    cases read
    exact (beforeElement first).notLonger reached
  | case3 => cases read
  | case4 => cases read
  | case5 first text between reached value after element others last tail ih =>
    cases read
    have kept := (beforeElement first).notLonger reached
    have shorter := decoder.read_shorter element
    have fewer := ih tail
    omega

/-- The elements of a list, after its opening bracket. -/
def elements (decoder : Decoder α) : Reader (List α) where
  run := elementsFrom decoder true
  notLonger := elementsFrom_notLonger decoder

/-! ### Objects -/

/-- Goes behind the opening quotation mark of the next key and says whether there is one. -/
def beforeMember (first : Bool) : Reader Bool := do
  Reader.space
  match ← Reader.peek? with
  | none => Reader.fail .endOfText
  | some '\x7d' => pure false
  | some ',' =>
    if first then Reader.fail .notJson
    else
      let _ ← Reader.next
      Reader.space
      Reader.expect ['"']
      pure true
  | some '"' =>
    if first then
      let _ ← Reader.next
      pure true
    else Reader.fail .notJson
  | some _ => Reader.fail .notJson

def colon : Reader Unit := do
  Reader.space
  Reader.expect [':']

def closeObject : Reader Unit := do
  Reader.space
  Reader.expect ['\x7d']

/-- How the value of a key is read into a state, or why the key is an error. -/
abbrev Fields (σ : Type) := σ → String → Except ReadError (Decoder σ)

/-- A member of an object behind its key, read into a state. -/
def member (fields : Fields σ) (state : σ) (key : List Char) : Reader σ := do
  let decoder ← Reader.ofExcept (fields state (String.ofList key))
  colon
  decoder.read

/-- Reading a member makes the text shorter. -/
theorem member_shorter (fields : Fields σ) {state grown : σ} {key text rest : List Char}
    (read : (member fields state key).run text = .ok (grown, rest)) :
    rest.length < text.length := by
  unfold member at read
  rw [Reader.run_bind] at read
  split at read
  · cases read
  · next decoder between chosen =>
    have kept := (Reader.ofExcept (fields state (String.ofList key))).notLonger chosen
    rw [Reader.run_bind] at read
    split at read
    · cases read
    · next after coloned =>
      have passed := colon.notLonger coloned
      have shorter := decoder.read_shorter read
      omega

/-- The members of an object up to its closing brace, read into a state. -/
def membersFrom (fields : Fields σ) (state : σ) (first : Bool) (text : List Char) : Reading σ :=
  match _reached : (beforeMember first).run text with
  | .error error => .error error
  | .ok (false, rest) => .ok (state, rest)
  | .ok (true, rest) =>
    match _key : stringBody.run rest with
    | .error error => .error error
    | .ok (key, between) =>
      match _value : (member fields state key).run between with
      | .error error => .error error
      | .ok (grown, after) => membersFrom fields grown false after
termination_by text.length
decreasing_by
  have kept := (beforeMember first).notLonger _reached
  have named := stringBody.notLonger _key
  have shorter := member_shorter fields _value
  omega

/-- Reading members never makes the text longer. -/
theorem membersFrom_notLonger (fields : Fields σ) {state final : σ} {first : Bool}
    {text rest : List Char} (read : membersFrom fields state first text = .ok (final, rest)) :
    rest.length ≤ text.length := by
  fun_induction membersFrom fields state first text with
  | case1 => cases read
  | case2 state first text rest reached =>
    cases read
    exact (beforeMember first).notLonger reached
  | case3 => cases read
  | case4 => cases read
  | case5 state first text start reached key between named grown after valued ih =>
    have kept := (beforeMember first).notLonger reached
    have keyed := stringBody.notLonger named
    have shorter := member_shorter fields valued
    have fewer := ih read
    omega

/-- The members of an object after its opening brace, read into a state. -/
def members (fields : Fields σ) (state : σ) : Reader σ where
  run := membersFrom fields state true
  notLonger := membersFrom_notLonger fields

end RenderLink.Json
