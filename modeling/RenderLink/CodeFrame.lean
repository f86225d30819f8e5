/-
**Code frames.**

A frame shows the line on which a range of the source begins, two lines before it and at least two
behind it, with carets under the characters of the range. Offsets count the characters of the lines
and one for the end of each line; a range that begins behind the last line has an empty frame.

* `render_of_past_end`: such a range has an empty frame.
-/

import RenderLink.Text.Lines

namespace RenderLink.CodeFrame

open Text

/-- The number of lines shown before the marked line, and at least behind it. -/
def context : Nat := 2

abbrev Row := List Char

/-- The row of a source line: its number, a bar and its text. -/
def sourceRow (number : Nat) (line : List Char) : Row :=
  let digits := Nat.toDigits 10 number
  digits ++ List.replicate (3 - digits.length) ' ' ++ ['|', ' ', ' '] ++ line

/-- The row below a source line: blanks and then carets. Negative counts are none. -/
def caretRow (blanks carets : Int) : Row :=
  [' ', ' ', ' ', '|', ' ', ' '] ++ List.replicate blanks.toNat ' ' ++
    List.replicate carets.toNat '^'

/-- The rows behind the marked line. Lines are shown up to the context and as long as the range
reaches them; a line begins at an offset and has a number, and some lines are shown already. -/
def rowsBehind (stop : Int) (offset : Int) (shown number : Nat) : List (List Char) → List Row
  | [] => []
  | line :: rest =>
    if shown < context ∨ offset < stop then
      let carets := if offset < stop then [caretRow 0 (min (stop - offset) line.length)] else []
      sourceRow number line :: carets ++
        rowsBehind stop (offset + line.length + 1) (shown + 1) (number + 1) rest
    else []

/-- The caret row of the marked line, which begins at an offset. The numbers have no bounds here.
For offsets below 2⁶³ every difference is a number of 64 bits. An offset from 2⁶³ on is negative
(`signed`), and then `start - offset` and `stop - start` can leave 64 bits: there the subtraction of
64-bit numbers overflows, and this row says nothing about it. -/
def markedRow (start stop offset : Int) (line : List Char) : Row :=
  let blanks := start - offset
  caretRow blanks (if offset + line.length + 1 < stop then line.length - blanks else stop - start)

/-- The rows of the frame, from a line on that begins at an offset and has a number. The rows of the
lines right before it stand in reverse order. -/
def rowsFrom (start stop : Int) (offset : Int) (number : Nat) (before : List Row) :
    List (List Char) → List Row
  | [] => []
  | line :: rest =>
    let next := offset + line.length + 1
    let row := sourceRow number line
    if next < start then
      rowsFrom start stop next (number + 1) ((row :: before).take context) rest
    else
      before.reverse ++ row :: markedRow start stop offset line ::
        rowsBehind stop next 0 (number + 1) rest

/-- A 64-bit offset as a signed number. -/
def signed (offset : UInt64) : Int := offset.toInt64.toInt

/-- The rows of the frame of a range. -/
def rows (source : List Char) (start stop : Int) : List Row :=
  rowsFrom start stop 0 1 [] (lines source)

/-- The frame of the range of a source from `start` up to `stop`. -/
def render (source : String) (start stop : UInt64) : String :=
  String.ofList (joinWith '\n' (rows source.toList (signed start) (signed stop)))

/-- The offset behind lines of which the first begins at an offset. -/
def offsetBehind (offset : Int) : List (List Char) → Int
  | [] => offset
  | line :: rest => offsetBehind (offset + line.length + 1) rest

/-- Lines move the offset forward only. -/
theorem le_offsetBehind (offset : Int) (lines : List (List Char)) :
    offset ≤ offsetBehind offset lines := by
  induction lines generalizing offset with
  | nil => exact Int.le_refl _
  | cons line rest ih =>
    have later := ih (offset + line.length + 1)
    rw [offsetBehind]
    omega

/-- There are no rows when the range begins behind the last line. -/
theorem rowsFrom_of_past_end {start stop offset : Int} {number : Nat} {before : List Row}
    {remaining : List (List Char)} (past : offsetBehind offset remaining < start) :
    rowsFrom start stop offset number before remaining = [] := by
  induction remaining generalizing offset number before with
  | nil => rfl
  | cons line rest ih =>
    rw [offsetBehind] at past
    have behind : offset + line.length + 1 < start :=
      Int.lt_of_le_of_lt (le_offsetBehind _ rest) past
    rw [rowsFrom, if_pos behind]
    exact ih past

/-- A range that begins behind the last line has an empty frame. -/
theorem render_of_past_end {source : String} {start stop : UInt64}
    (past : offsetBehind 0 (lines source.toList) < signed start) :
    render source start stop = "" := by
  simp [render, rows, rowsFrom_of_past_end past, joinWith]

end RenderLink.CodeFrame
