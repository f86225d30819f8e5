/-
**What readers give.**

A reader of two steps gives a value when both of its steps do. What is read may have an outcome of
its own, whatever stands behind it; its reading is then that outcome with the rest of the text.

* `Reader.run_bind_eq_ok_iff`: when two steps, one after the other, give a value.
-/

import RenderLink.Json.Reader

namespace RenderLink.Json

variable {α β : Type}

/-- The value of a word that is kept. A word that has none breaks the grammar. -/
def kept : Option α → Except ReadError α
  | some value => .ok value
  | none => .error .notJson

@[simp] theorem kept_some (value : α) : kept (some value) = .ok value := rfl

@[simp] theorem kept_none : (kept none : Except ReadError α) = .error .notJson := rfl

theorem kept_bind (value : Option α) (f : α → Option β) :
    kept (value.bind f) = kept value >>= fun found => kept (f found) := by
  cases value <;> rfl

theorem kept_eq_ok_iff {value : Option α} {found : α} :
    kept value = .ok found ↔ value = some found := by
  cases value <;> simp [kept]

theorem kept_eq_error_iff {value : Option α} {error : ReadError} :
    kept value = .error error ↔ value = none ∧ error = .notJson := by
  cases value <;> simp [kept, eq_comm]

/-- An outcome under a function is a value when the outcome is one. -/
theorem map_eq_ok_iff {f : α → β} {outcome : Except ReadError α} {value : β} :
    outcome.map f = .ok value ↔ ∃ found, outcome = .ok found ∧ f found = value := by
  cases outcome <;> simp [Except.map]

/-- Two outcomes, one after the other, are a value when both are. -/
theorem bind_eq_ok_iff {outcome : Except ReadError α} {next : α → Except ReadError β} {value : β} :
    outcome >>= next = .ok value ↔ ∃ found, outcome = .ok found ∧ next found = .ok value := by
  cases outcome <;> simp [bind, Except.bind]

/-- Two outcomes, one after the other, are an error when one of them is. -/
theorem bind_eq_error_iff {outcome : Except ReadError α} {next : α → Except ReadError β}
    {error : ReadError} :
    outcome >>= next = .error error ↔
      outcome = .error error ∨ ∃ found, outcome = .ok found ∧ next found = .error error := by
  cases outcome <;> simp [bind, Except.bind]

theorem map_eq_error_iff {f : α → β} {outcome : Except ReadError α} {error : ReadError} :
    outcome.map f = .error error ↔ outcome = .error error := by
  cases outcome <;> simp [Except.map]

/-- The reading of what has an outcome of its own, with something behind it. -/
def answer (outcome : Except ReadError α) (rest : List Char) : Reading α :=
  outcome.map fun value => (value, rest)

@[simp] theorem answer_ok (value : α) (rest : List Char) :
    answer (.ok value) rest = .ok (value, rest) := rfl

@[simp] theorem answer_error (error : ReadError) (rest : List Char) :
    (answer (.error error) rest : Reading α) = .error error := rfl

namespace Reader

/-- Two steps give a value when the first gives one and the second gives one with it. -/
theorem run_bind_eq_ok_iff {first : Reader α} {next : α → Reader β} {text rest : List Char}
    {value : β} :
    (first >>= next).run text = .ok (value, rest) ↔
      ∃ between after, first.run text = .ok (between, after) ∧
        (next between).run after = .ok (value, rest) := by
  rw [run_bind]
  constructor
  · intro read
    split at read
    · cases read
    · next between after taken => exact ⟨between, after, taken, read⟩
  · rintro ⟨between, after, taken, read⟩
    rw [taken]
    exact read

theorem run_pure_eq_ok_iff {value found : α} {text rest : List Char} :
    (pure value : Reader α).run text = .ok (found, rest) ↔ value = found ∧ text = rest := by
  rw [run_pure, Except.ok.injEq, Prod.mk.injEq]

/-- A step whose value is only answered with gives that answer, and the rest of the text is its
own. -/
theorem run_bind_pure_eq_ok_iff {first : Reader α} {result : α → β} {text rest : List Char}
    {value : β} :
    (first >>= fun between => pure (result between)).run text = .ok (value, rest) ↔
      ∃ between, first.run text = .ok (between, rest) ∧ result between = value := by
  rw [run_bind_eq_ok_iff]
  constructor
  · rintro ⟨between, after, taken, ended⟩
    obtain ⟨rfl, rfl⟩ := run_pure_eq_ok_iff.mp ended
    exact ⟨between, taken, rfl⟩
  · rintro ⟨between, taken, rfl⟩
    exact ⟨between, rest, taken, rfl⟩

@[simp] theorem run_peek? (text : List Char) : peek?.run text = .ok (text.head?, text) := rfl

@[simp] theorem run_next_cons (c : Char) (text : List Char) :
    next.run (c :: text) = .ok (c, text) := rfl

@[simp] theorem run_next_nil : next.run [] = .error .endOfText := rfl

@[simp] theorem run_next?_cons (c : Char) (text : List Char) :
    next?.run (c :: text) = .ok (some c, text) := rfl

@[simp] theorem run_next?_nil : next?.run [] = .ok (none, []) := rfl

/-- Readers are the same when they read the same. -/
theorem ext {first second : Reader α} (same : ∀ text, first.run text = second.run text) :
    first = second := by
  obtain ⟨run, notLonger⟩ := first
  obtain rfl := funext same
  rfl

/-- Steps can be grouped from either end. -/
theorem bind_assoc {γ : Type} (first : Reader α) (second : α → Reader β) (third : β → Reader γ) :
    first >>= second >>= third = first >>= fun value => second value >>= third := by
  refine ext fun text => ?_
  simp only [run_bind]
  cases first.run text <;> rfl

/-- Space is skipped before a step. -/
theorem run_space_bind (next : Unit → Reader α) (text : List Char) :
    (space >>= next).run text = (next ()).run (text.dropWhile isSpace) := rfl

/-- A step knows the next character. -/
theorem run_peek?_bind (next : Option Char → Reader α) (text : List Char) :
    (peek? >>= next).run text = (next text.head?).run text := rfl

/-- A step is given the next character. -/
theorem run_next_bind (next : Char → Reader α) (c : Char) (text : List Char) :
    (Reader.next >>= next).run (c :: text) = (next c).run text := rfl

/-- The first step is taken and the second goes on behind it. -/
theorem run_bind_of_ok {first : Reader α} {next : α → Reader β} {text after : List Char}
    {between : α} (taken : first.run text = .ok (between, after)) :
    (first >>= next).run text = (next between).run after := by
  rw [run_bind, taken]

/-- A step that fails ends the reading. -/
theorem run_bind_of_error {first : Reader α} {next : α → Reader β} {text : List Char}
    {error : ReadError} (failed : first.run text = .error error) :
    (first >>= next).run text = .error error := by
  rw [run_bind, failed]

/-- Characters that are expected and stand there are taken. -/
@[simp] theorem run_expect_append (word rest : List Char) :
    (expect word).run (word ++ rest) = .ok ((), rest) := by
  induction word with
  | nil => rfl
  | cons c word ih => simp [expect, run_bind, ih]

/-- Characters that were taken as expected stand there. -/
theorem eq_of_expect {word text rest : List Char} {value : Unit}
    (taken : (expect word).run text = .ok (value, rest)) : text = word ++ rest := by
  induction word generalizing text with
  | nil =>
    injection taken with taken
    exact congrArg Prod.snd taken
  | cons c word ih =>
    cases text with
    | nil => cases taken
    | cons found text =>
      simp only [expect, run_bind, run_next_cons] at taken
      split at taken
      · next same => rw [same, ih taken, List.cons_append]
      · cases taken

end Reader

end RenderLink.Json
