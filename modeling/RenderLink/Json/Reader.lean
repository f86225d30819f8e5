/-
**Readers.**

A reader takes a value off the front of a text and leaves the rest; that it never makes the text
longer is part of it. A decoder says what to read once the first character of a value is known, so
reading with it always makes the text shorter (`Decoder.read_shorter`), and a list of values can be
read by recursion on the text.
-/

import RenderLink.Json.ReadError

namespace RenderLink.Json

/-- What reading a text gives: a value and the rest of the text, or the first problem met. -/
abbrev Reading (α : Type) := Except ReadError (α × List Char)

/-- A way to take a value off the front of a text. -/
structure Reader (α : Type) where
  run : List Char → Reading α
  /-- The rest is never longer than the text. -/
  notLonger : ∀ {text value rest}, run text = .ok (value, rest) → rest.length ≤ text.length

namespace Reader

variable {α β : Type}

/-- Takes nothing and gives a value. -/
protected def pure (value : α) : Reader α where
  run text := .ok (value, text)
  notLonger read := by cases read; exact Nat.le_refl _

protected def bind (first : Reader α) (next : α → Reader β) : Reader β where
  run text :=
    match first.run text with
    | .error error => .error error
    | .ok (value, rest) => (next value).run rest
  notLonger {text value rest} read := by
    split at read
    · cases read
    · next middle between firstRead =>
      exact Nat.le_trans ((next middle).notLonger read) (first.notLonger firstRead)

instance : Monad Reader where
  pure := Reader.pure
  bind := Reader.bind

@[simp] theorem run_pure (value : α) (text : List Char) :
    (pure value : Reader α).run text = .ok (value, text) := rfl

theorem run_bind (first : Reader α) (next : α → Reader β) (text : List Char) :
    (first >>= next).run text =
      match first.run text with
      | .error error => .error error
      | .ok (value, rest) => (next value).run rest := rfl

def fail (error : ReadError) : Reader α where
  run _ := .error error
  notLonger read := by cases read

@[simp] theorem run_fail (error : ReadError) (text : List Char) :
    (fail error : Reader α).run text = .error error := rfl

/-- The value of a result, or its error. -/
def ofExcept : Except ReadError α → Reader α
  | .ok value => pure value
  | .error error => fail error

/-! ### Characters -/

/-- The characters between the tokens of a text. -/
def isSpace (c : Char) : Bool := c = ' ' || c = '\t' || c = '\n' || c = '\r'

def space : Reader Unit where
  run text := .ok ((), text.dropWhile isSpace)
  notLonger read := by
    cases read
    exact (List.dropWhile_sublist _).length_le

/-- The next character, which is not taken. -/
def peek? : Reader (Option Char) where
  run text := .ok (text.head?, text)
  notLonger read := by cases read; exact Nat.le_refl _

/-- Takes the next character, if there is one. -/
def next? : Reader (Option Char) where
  run
    | [] => .ok (none, [])
    | c :: rest => .ok (some c, rest)
  notLonger {text value rest} read := by
    cases text <;> cases read <;> simp

/-- Takes the next character. -/
def next : Reader Char where
  run
    | [] => .error .endOfText
    | c :: rest => .ok (c, rest)
  notLonger {text value rest} read := by
    cases text <;> cases read
    simp

/-- Takes the given characters. -/
def expect : List Char → Reader Unit
  | [] => pure ()
  | c :: rest => do
    let found ← next
    if found = c then expect rest else fail .notJson

/-- Takes the characters of a class. -/
def takeWhile (p : Char → Bool) : Reader (List Char) where
  run text := .ok (text.takeWhile p, text.dropWhile p)
  notLonger read := by
    cases read
    exact (List.dropWhile_sublist _).length_le

end Reader

/-- What to read once the first character of a value has been taken. -/
abbrev Decoder (α : Type) := Char → Reader α

namespace Decoder

variable {α β : Type}

/-- Skips space and reads a value. -/
def read (decoder : Decoder α) : Reader α := do
  Reader.space
  let head ← Reader.next
  decoder head

/-- Reading a value makes the text shorter. -/
theorem read_shorter (decoder : Decoder α) {text rest : List Char} {value : α}
    (read : decoder.read.run text = .ok (value, rest)) : rest.length < text.length := by
  simp only [Decoder.read, Reader.run_bind, Reader.space, Reader.next] at read
  have kept : (text.dropWhile Reader.isSpace).length ≤ text.length :=
    (List.dropWhile_sublist _).length_le
  cases body : text.dropWhile Reader.isSpace with
  | nil => simp [body] at read
  | cons head tail =>
    rw [body] at kept
    simp only [body] at read
    have shorter := (decoder head).notLonger read
    simp only [List.length_cons] at kept
    omega

/-- The values of a decoder under a function. -/
def map (f : α → β) (decoder : Decoder α) : Decoder β := fun head => do
  let value ← decoder head
  pure (f value)

end Decoder

end RenderLink.Json
