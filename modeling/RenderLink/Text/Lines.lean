/-
**Lines of a text.**

A line feed ends a line, and a carriage return right before it does not belong to the line.

* `joinWith_splitOn`: the pieces between line feeds, joined by line feeds, are the text.
-/

namespace RenderLink.Text

/-- The pieces of a list between the elements that equal a mark. -/
def splitOn {α : Type} [DecidableEq α] (mark : α) : List α → List (List α)
  | [] => [[]]
  | a :: rest =>
    if a = mark then [] :: splitOn mark rest
    else
      match splitOn mark rest with
      | [] => [[a]]
      | piece :: pieces => (a :: piece) :: pieces

/-- Pieces joined by a mark. -/
def joinWith {α : Type} (mark : α) : List (List α) → List α
  | [] => []
  | [piece] => piece
  | piece :: pieces => piece ++ mark :: joinWith mark pieces

theorem splitOn_ne_nil {α : Type} [DecidableEq α] (mark : α) (list : List α) :
    splitOn mark list ≠ [] := by
  cases list with
  | nil => simp [splitOn]
  | cons a rest =>
    simp only [splitOn]
    split
    · simp
    · split <;> simp

/-- The pieces between marks, joined by the mark, are the list. -/
theorem joinWith_splitOn {α : Type} [DecidableEq α] (mark : α) (list : List α) :
    joinWith mark (splitOn mark list) = list := by
  induction list with
  | nil => rfl
  | cons a rest ih =>
    simp only [splitOn]
    have some := splitOn_ne_nil mark rest
    cases pieces : splitOn mark rest with
    | nil => exact absurd pieces some
    | cons piece others =>
      rw [pieces] at ih
      split
      · next same => simp [joinWith, ih, same]
      · cases others with
        | nil => simpa [joinWith] using ih
        | cons second others => simpa [joinWith] using ih

/-- A line without a carriage return at its end. -/
def stripReturn (line : List Char) : List Char :=
  if line.getLast? = some '\r' then line.dropLast else line

def lines (text : List Char) : List (List Char) :=
  (splitOn '\n' text).map stripReturn

end RenderLink.Text
