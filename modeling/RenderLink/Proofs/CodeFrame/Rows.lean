/-
**The rows of a frame.**

The lines of a source take up their characters and one more each. The rows of a frame begin at the
first line whose end is not before the range: there stand the context before it, the marked line
with its carets, and the rows behind it.

* `exists_marked`: a line is marked if the range does not begin behind the last line.
* `rows_eq`: **the rows of a frame** around its marked line.
* `isRowOf_rows`: **every row of a frame** is that of a line of the source or one of carets.
* `splitOn_render`: the rows of a frame are its pieces between line feeds.
-/

import RenderLink.CodeFrame
import RenderLink.Proofs.Text.Lines

namespace RenderLink.CodeFrame

open Text

/-! ### Lines of a source -/

/-- What lines take up: their characters, and one more for the end of each. -/
def extent : List (List Char) → Nat
  | [] => 0
  | line :: rest => line.length + 1 + extent rest

@[simp] theorem extent_nil : extent [] = 0 := rfl

@[simp] theorem extent_cons (line : List Char) (rest : List (List Char)) :
    extent (line :: rest) = line.length + 1 + extent rest := rfl

@[simp] theorem extent_append (first second : List (List Char)) :
    extent (first ++ second) = extent first + extent second := by
  induction first with
  | nil => simp
  | cons line rest ih => simp [ih, Nat.add_assoc]

theorem extent_concat (before : List (List Char)) (line : List Char) :
    extent (before ++ [line]) = extent before + line.length + 1 := by
  simp [Nat.add_assoc]

/-- Lines take up one more than their text, whose last line has no end. -/
theorem length_joinWith {lines : List (List Char)} (nonempty : lines ≠ []) :
    (joinWith '\n' lines).length + 1 = extent lines := by
  induction lines with
  | nil => exact absurd rfl nonempty
  | cons line rest ih =>
    cases rest with
    | nil => simp [joinWith]
    | cons next others =>
      have more : next :: others ≠ [] := List.cons_ne_nil next others
      rw [joinWith_cons_of_ne_nil '\n' line more, List.length_append, List.length_cons, ih more,
        extent_cons line, Nat.add_right_comm, Nat.add_assoc]

theorem stripReturn_of_not_mem {line : List Char} (noReturn : '\r' ∉ line) :
    stripReturn line = line :=
  if_neg fun last => noReturn (List.mem_of_getLast? last)

/-- A text without carriage returns has the pieces between line feeds for its lines. -/
theorem lines_of_no_return {text : List Char} (noReturn : '\r' ∉ text) :
    lines text = splitOn '\n' text := by
  have plain : ∀ line ∈ splitOn '\n' text, stripReturn line = line := fun line member =>
    stripReturn_of_not_mem fun inside =>
      noReturn (mem_of_mem_splitOn member inside)
  rw [lines, List.map_congr_left plain, List.map_id']

/-- A line of a text holds no line feed. -/
theorem not_mem_of_mem_lines {text line : List Char} (member : line ∈ lines text) :
    '\n' ∉ line := by
  obtain ⟨piece, among, rfl⟩ := List.mem_map.1 member
  have free := not_mem_of_mem_splitOn piece among
  unfold stripReturn
  split
  · exact fun inside => free ((List.dropLast_sublist _).subset inside)
  · exact free

/-- Pieces between line feeds take up one more than their text. -/
theorem extent_splitOn (text : List Char) : extent (splitOn '\n' text) = text.length + 1 := by
  rw [← length_joinWith (splitOn_ne_nil '\n' text), joinWith_splitOn]

/-- The line that a frame marks for a start: the first one whose end is not before the start. The
beginning of a line counts as the end of the line before it. -/
structure Marked (lines : List (List Char)) (start : Nat) (before : List (List Char))
    (line : List Char) (behind : List (List Char)) : Prop where
  whole : lines = before ++ line :: behind
  passed : before ≠ [] → extent before < start
  reached : start ≤ extent before + line.length + 1

theorem Marked.anchored {lines before behind : List (List Char)} {line : List Char} {start : Nat}
    (marked : Marked lines start before line behind) : extent before ≤ start := by
  by_cases none : before = []
  · simp [none]
  · exact Nat.le_of_lt (marked.passed none)

/-- A line is marked if the start is not behind the last line. -/
theorem exists_marked {lines : List (List Char)} (nonempty : lines ≠ []) {start : Nat}
    (within : start ≤ extent lines) :
    ∃ before line behind, Marked lines start before line behind := by
  induction lines generalizing start with
  | nil => exact absurd rfl nonempty
  | cons line rest ih =>
    rw [extent_cons] at within
    by_cases here : start ≤ line.length + 1
    · exact ⟨[], line, rest, rfl, fun other => absurd rfl other, by simpa using here⟩
    · have more : rest ≠ [] := by
        rintro rfl
        exact here within
      obtain ⟨before, found, behind, marked⟩ :=
        ih more (show start - (line.length + 1) ≤ extent rest by omega)
      have anchored := marked.anchored
      have reached := marked.reached
      refine ⟨line :: before, found, behind, congrArg (line :: ·) marked.whole, fun _ => ?_, ?_⟩
      · by_cases only : before = []
        · simp only [only, extent_cons, extent_nil]
          omega
        · have passed := marked.passed only
          rw [extent_cons]
          omega
      · rw [extent_cons]
        omega

theorem offsetBehind_eq (offset : Int) (lines : List (List Char)) :
    offsetBehind offset lines = offset + extent lines := by
  induction lines generalizing offset with
  | nil => simp [offsetBehind]
  | cons line rest ih =>
    rw [offsetBehind, ih, extent_cons]
    push_cast
    omega

/-! ### Source rows -/

/-- The rows of lines with consecutive numbers. -/
def sourceRows (number : Nat) : List (List Char) → List Row
  | [] => []
  | line :: rest => sourceRow number line :: sourceRows (number + 1) rest

section Steps

variable {start stop : Int} {offset number : Nat} {before : List Row} {line : List Char}
  {skipped rest : List (List Char)}

theorem rowsFrom_skip (passed : ((offset + line.length + 1 : Nat) : Int) < start) :
    rowsFrom start stop offset number before (line :: rest) =
      rowsFrom start stop (offset + line.length + 1 : Nat) (number + 1)
        ((sourceRow number line :: before).take context) rest :=
  if_pos passed

theorem rowsFrom_mark (reached : start ≤ ((offset + line.length + 1 : Nat) : Int)) :
    rowsFrom start stop offset number before (line :: rest) =
      before.reverse ++ sourceRow number line :: markedRow start stop offset line ::
        rowsBehind stop (offset + line.length + 1 : Nat) 0 (number + 1) rest :=
  if_neg (Int.not_lt.2 reached)

variable {shown : Nat}

theorem rowsBehind_reached (reached : (offset : Int) < stop) :
    rowsBehind stop offset shown number (line :: rest) =
      sourceRow number line :: caretRow 0 (min (stop - offset) line.length) ::
        rowsBehind stop (offset + line.length + 1 : Nat) (shown + 1) (number + 1) rest := by
  rw [rowsBehind, if_pos (.inr reached), if_pos reached]
  rfl

theorem rowsBehind_shown (few : shown < context) (ended : stop ≤ offset) :
    rowsBehind stop offset shown number (line :: rest) =
      sourceRow number line ::
        rowsBehind stop (offset + line.length + 1 : Nat) (shown + 1) (number + 1) rest := by
  rw [rowsBehind, if_pos (.inl few), if_neg (Int.not_lt.2 ended)]
  rfl

theorem rowsBehind_ended (enough : context ≤ shown) (ended : stop ≤ offset) :
    rowsBehind stop offset shown number (line :: rest) = [] := by
  rw [rowsBehind, if_neg (not_or.2 ⟨Nat.not_lt.2 enough, Int.not_lt.2 ended⟩)]

/-- The rows of a frame from a line on: of the lines before the marked one the last are the
context. -/
theorem rowsFrom_eq (few : before.length ≤ context)
    (passed : skipped ≠ [] → ((offset + extent skipped : Nat) : Int) < start)
    (reached : start ≤ ((offset + extent skipped + line.length + 1 : Nat) : Int)) :
    rowsFrom start stop offset number before (skipped ++ line :: rest) =
      (((sourceRows number skipped).reverse ++ before).take context).reverse ++
        sourceRow (number + skipped.length) line ::
        markedRow start stop (offset + extent skipped : Nat) line ::
        rowsBehind stop (offset + extent skipped + line.length + 1 : Nat) 0
          (number + skipped.length + 1) rest := by
  induction skipped generalizing offset number before with
  | nil =>
    have here : start ≤ ((offset + line.length + 1 : Nat) : Int) := reached
    rw [List.nil_append, rowsFrom_mark here, sourceRows, List.reverse_nil, List.nil_append,
      List.take_of_length_le few]
    rfl
  | cons first others ih =>
    have early := passed (List.cons_ne_nil first others)
    rw [extent_cons] at early reached
    have here : ((offset + first.length + 1 : Nat) : Int) < start := by omega
    have sum : offset + (first.length + 1 + extent others) =
        offset + first.length + 1 + extent others := by omega
    -- the window keeps the last rows only, so it does not matter what it has dropped before
    have window : ((sourceRows (number + 1) others).reverse ++
          (sourceRow number first :: before).take context).take context =
        ((sourceRows number (first :: others)).reverse ++ before).take context := by
      simp [sourceRows, List.take_append, List.take_take]
    rw [List.cons_append, rowsFrom_skip here,
      ih (List.length_take_le ..) (fun _ => sum ▸ early) (sum ▸ reached), window, extent_cons,
      sum, List.length_cons, Nat.add_right_comm number 1, Nat.add_assoc number]

end Steps

theorem exists_sourceRow_of_mem {number : Nat} {lines : List (List Char)} :
    ∀ row ∈ sourceRows number lines, ∃ number line, row = sourceRow number line := by
  induction lines generalizing number with
  | nil => exact fun row member => absurd member List.not_mem_nil
  | cons line rest ih => exact List.forall_mem_cons.2 ⟨⟨number, line, rfl⟩, ih⟩

/-- **The rows of a frame** around its marked line. -/
theorem rows_eq {source line : List Char} {before behind : List (List Char)} {start : Nat}
    (marked : Marked (lines source) start before line behind) (stop : Int) :
    rows source start stop =
      ((sourceRows 1 before).reverse.take context).reverse ++
        sourceRow (before.length + 1) line :: markedRow start stop (extent before : Nat) line ::
        rowsBehind stop (extent before + line.length + 1 : Nat) 0 (before.length + 1 + 1)
          behind := by
  have frame := @rowsFrom_eq start stop 0 1 [] line before behind (Nat.zero_le _)
    (fun more => by simpa using marked.passed more) (by simpa using Int.ofNat_le.2 marked.reached)
  rw [List.append_nil, Nat.zero_add, Nat.add_comm 1] at frame
  rw [rows, marked.whole]
  exact frame

/-! ### What a row can be -/

/-- A row of a frame: that of a source line, or one of carets. -/
def IsRowOf (lines : List (List Char)) (row : Row) : Prop :=
  (∃ number, ∃ line ∈ lines, row = sourceRow number line) ∨
    ∃ blanks carets, row = caretRow blanks carets

theorem IsRowOf.mono {some all : List (List Char)} {row : Row} (sub : some ⊆ all)
    (isRow : IsRowOf some row) : IsRowOf all row :=
  isRow.imp_left fun ⟨number, line, among, same⟩ => ⟨number, line, sub among, same⟩

theorem isRowOf_rowsBehind {stop offset : Int} {shown number : Nat} {lines : List (List Char)} :
    ∀ row ∈ rowsBehind stop offset shown number lines, IsRowOf lines row := by
  intro row member
  fun_induction rowsBehind stop offset shown number lines with
  | case1 => exact absurd member List.not_mem_nil
  | case2 offset shown number line rest _ carets ih =>
    rw [List.mem_append, List.mem_cons] at member
    rcases member with (rfl | inside) | later
    · exact .inl ⟨number, line, List.mem_cons_self, rfl⟩
    · simp only [carets] at inside
      split at inside
      · exact .inr ⟨_, _, List.mem_singleton.1 inside⟩
      · exact absurd inside List.not_mem_nil
    · exact (ih later).mono (List.subset_cons_self line rest)
  | case3 => exact absurd member List.not_mem_nil

theorem isRowOf_rowsFrom {start stop offset : Int} {number : Nat} {before : List Row}
    {all lines : List (List Char)} (sub : lines ⊆ all)
    (shown : ∀ row ∈ before, IsRowOf all row) :
    ∀ row ∈ rowsFrom start stop offset number before lines, IsRowOf all row := by
  fun_induction rowsFrom start stop offset number before lines with
  | case1 => exact fun row member => absurd member List.not_mem_nil
  | case2 offset number before line rest next row passed ih =>
    obtain ⟨here, later⟩ := List.cons_subset.1 sub
    refine ih later fun other member => ?_
    rcases List.mem_cons.1 (List.mem_of_mem_take member) with rfl | earlier
    · exact .inl ⟨number, line, here, rfl⟩
    · exact shown other earlier
  | case3 offset number before line rest next row reached =>
    obtain ⟨here, later⟩ := List.cons_subset.1 sub
    intro other member
    rw [List.mem_append, List.mem_reverse, List.mem_cons, List.mem_cons] at member
    rcases member with earlier | rfl | rfl | behind
    · exact shown other earlier
    · exact .inl ⟨number, line, here, rfl⟩
    · exact .inr ⟨_, _, rfl⟩
    · exact (isRowOf_rowsBehind other behind).mono later

/-- **Every row of a frame** is that of a line of the source or one of carets. -/
theorem isRowOf_rows {source : List Char} {start stop : Int} :
    ∀ row ∈ rows source start stop, IsRowOf (lines source) row :=
  isRowOf_rowsFrom (List.Subset.refl _) fun _ member => absurd member List.not_mem_nil

/-- No row of a frame holds a line feed. -/
theorem IsRowOf.free {source : List Char} {row : Row} (isRow : IsRowOf (lines source) row) :
    '\n' ∉ row := by
  rcases isRow with ⟨number, line, among, rfl⟩ | ⟨blanks, carets, rfl⟩
  · have free := not_mem_of_mem_lines among
    have digits : '\n' ∉ Nat.toDigits 10 number := fun inside =>
      absurd (Nat.isDigit_of_mem_toDigits (by decide) (by decide) inside) (by decide)
    simp [sourceRow, free, digits]
  · simp [caretRow]

/-- The rows of a frame are its pieces between line feeds. -/
theorem splitOn_render {source : String} {start stop : UInt64}
    (nonempty : rows source.toList (signed start) (signed stop) ≠ []) :
    splitOn '\n' (render source start stop).toList =
      rows source.toList (signed start) (signed stop) := by
  rw [render, String.toList_ofList,
    splitOn_joinWith nonempty fun row member => (isRowOf_rows row member).free]

end RenderLink.CodeFrame
