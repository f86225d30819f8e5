/-
**The window of a frame.**

A frame shows consecutive lines around the marked one: the context before it, and behind it the
context or all lines that the range reaches, whichever is more. Below the marked line and below each
later line that begins before the end of the range stands one row of carets.

The lines behind the marked one are shown by a loop with two tests in one, a count of the lines
shown and the offset at which the next one begins. Lines begin at increasing offsets, so the lines
that pass are those up to a last one (`le_windowEnd_iff`), and by induction the loop shows just
these (`rowsBehind_window`).

* `rows_window`: **the rows of a frame** are those of its window.
* `render_window`: a frame is empty when its range begins behind the last line, and shows its window
  otherwise.
-/

import RenderLink.Proofs.CodeFrame.Marks
import Mathlib.Algebra.Group.Nat.Defs
import Mathlib.Data.Nat.Find
import Mathlib.Order.MinMax

namespace RenderLink.CodeFrame

open Text

/-! ### Lines by their places -/

/-- The offset at which the line of a place begins; behind the last line, that of the end. -/
def beginning (lines : List (List Char)) (place : Nat) : Nat := extent (lines.take place)

/-- The line that a range begins in: the first one whose end is not before the start. -/
structure IsFirst (lines : List (List Char)) (start place : Nat) : Prop where
  within : place < lines.length
  reached : start ≤ beginning lines (place + 1)
  least : ∀ earlier < place, beginning lines (earlier + 1) < start

/-- The last line that a frame shows: that of the context, or the last one behind the marked line
that begins before the end of the range. -/
def windowEnd (lines : List (List Char)) (stop marked : Nat) : Nat :=
  max (min (marked + 2) (lines.length - 1))
    (Nat.findGreatest (fun place => marked < place ∧ beginning lines place < stop)
      (lines.length - 1))

/-- The row of a line, and below the marked line and later lines in the range a row of carets. -/
def windowRow (lines : List (List Char)) (text underline : Nat → Row) (stop marked place : Nat) :
    List Row :=
  text place ::
    if place = marked ∨ marked < place ∧ beginning lines place < stop then [underline place] else []

/-- The rows of the lines from the context before the marked line up to the end of the window. -/
def windowRows (lines : List (List Char)) (text underline : Nat → Row) (stop marked : Nat) :
    List Row :=
  let first := marked - 2
  (List.range' first (windowEnd lines stop marked + 1 - first)).flatMap
    (windowRow lines text underline stop marked)

/-- The row of a numbered line: the number, blanks, a bar and the text of the line. -/
def IsNumbered (number : Nat) (line : List Char) (row : Row) : Prop :=
  ∃ blanks, row = Nat.toDigits 10 number ++ List.replicate blanks ' ' ++ ['|', ' ', ' '] ++ line

/-- A row of carets: the gutter, blanks and carets. -/
def IsUnderline (row : Row) : Prop :=
  ∃ blanks carets, row = gutter ++ List.replicate blanks ' ' ++ List.replicate carets '^'

theorem isUnderline_caretRow (blanks carets : Int) : IsUnderline (caretRow blanks carets) :=
  ⟨blanks.toNat, carets.toNat, rfl⟩

/-- An offset below 2⁶³ is its own signed number. -/
theorem signed_of_lt {offset : UInt64} (small : offset.toNat < 2 ^ 63) :
    signed offset = offset.toNat := by
  show offset.toBitVec.toInt = offset.toBitVec.toNat
  refine BitVec.toInt_eq_toNat_of_lt ?_
  have same : offset.toBitVec.toNat = offset.toNat := rfl
  omega

section Places

variable {lines before remaining behind : List (List Char)} {line : List Char}
variable {stop marked place start : Nat}

theorem beginning_length (whole : lines = before ++ remaining) :
    beginning lines before.length = extent before := by
  rw [beginning, whole, List.take_left]

theorem beginning_mono {later : Nat} (ordered : place ≤ later) :
    beginning lines place ≤ beginning lines later := by
  obtain ⟨rest, whole⟩ : lines.take place <+: lines.take later :=
    List.take_prefix_take_left ordered
  rw [beginning, beginning, ← whole, extent_append]
  exact Nat.le_add_right _ _

/-- The line between two parts is the one that is marked. -/
theorem Marked.isFirst (marked : Marked lines start before line behind) :
    IsFirst lines start before.length where
  within := by
    rw [marked.whole, List.length_append, List.length_cons]
    omega
  reached := by
    have behindLine := beginning_length (marked.whole.trans (List.append_cons before line behind))
    rw [List.length_append, List.length_singleton, extent_concat] at behindLine
    exact behindLine ▸ marked.reached
  least earlier below := by
    have passed := marked.passed (List.ne_nil_of_length_pos (Nat.zero_lt_of_lt below))
    rw [← beginning_length marked.whole] at passed
    exact Nat.lt_of_le_of_lt (beginning_mono below) passed

/-! ### The end of the window -/

/-- **The lines of the window** behind the marked one: those of the context, and those that begin
before the end of the range. -/
theorem le_windowEnd_iff (behindMarked : marked < place) :
    place ≤ windowEnd lines stop marked ↔
      place < lines.length ∧ (place ≤ marked + 2 ∨ beginning lines place < stop) := by
  rw [windowEnd, le_max_iff, Nat.le_min]
  generalize last : Nat.findGreatest (fun place => marked < place ∧ beginning lines place < stop)
    (lines.length - 1) = greatest
  constructor
  · rintro (⟨near, within⟩ | up)
    · exact ⟨by omega, .inl near⟩
    · have some : greatest ≠ 0 := by omega
      obtain ⟨-, before⟩ := Nat.findGreatest_of_ne_zero last some
      have within := Nat.findGreatest_le
        (P := fun place => marked < place ∧ beginning lines place < stop) (lines.length - 1)
      rw [last] at within
      exact ⟨by omega, .inr (Nat.lt_of_le_of_lt (beginning_mono up) before)⟩
  · rintro ⟨within, near | before⟩
    · exact .inl ⟨near, by omega⟩
    · exact .inr (last ▸ Nat.le_findGreatest (by omega) ⟨behindMarked, before⟩)

theorem le_windowEnd (within : marked < lines.length) :
    marked ≤ windowEnd lines stop marked :=
  le_max_of_le_left (Nat.le_min.2 ⟨Nat.le_add_right _ _, by omega⟩)

theorem windowEnd_lt (within : marked < lines.length) :
    windowEnd lines stop marked < lines.length := by
  rcases Nat.eq_or_lt_of_le (@le_windowEnd lines stop marked within) with same | behindMarked
  · rwa [← same]
  · exact ((le_windowEnd_iff behindMarked).1 (Nat.le_refl _)).1

/-! ### The places of the window -/

theorem range'_upTo {first last : Nat} (within : first ≤ last) :
    List.range' first (last + 1 - first) =
      first :: List.range' (first + 1) (last + 1 - (first + 1)) := by
  have size : last + 1 - first = last + 1 - (first + 1) + 1 := by omega
  rw [size, List.range'_succ]

/-- Places around one of them: those before it, the place itself and those behind it. -/
theorem range'_around {first middle last : Nat} (low : first ≤ middle) (high : middle ≤ last) :
    List.range' first (last + 1 - first) = List.range' first (middle - first) ++
      middle :: List.range' (middle + 1) (last + 1 - (middle + 1)) := by
  have size : last + 1 - first = middle - first + (last + 1 - middle) := by omega
  rw [size, ← List.range'_append_1, Nat.add_sub_cancel' low, range'_upTo high]

/-! ### The rows of the window -/

/-- The row of a line of a text. -/
def sourceOf (lines : List (List Char)) (place : Nat) : Row :=
  sourceRow (place + 1) (lines.getD place [])

theorem windowRow_before (text underline : Nat → Row) (early : place < marked) :
    windowRow lines text underline stop marked place = [text place] := by
  rw [windowRow, if_neg]
  omega

theorem length_sourceRows (number : Nat) (lines : List (List Char)) :
    (sourceRows number lines).length = lines.length := by
  induction lines generalizing number with
  | nil => rfl
  | cons line rest ih => rw [sourceRows, List.length_cons, List.length_cons, ih]

theorem drop_sourceRows (number count : Nat) (lines : List (List Char)) :
    (sourceRows number lines).drop count = sourceRows (number + count) (lines.drop count) := by
  induction lines generalizing number count with
  | nil => simp [sourceRows]
  | cons line rest ih =>
    cases count with
    | zero => rfl
    | succ count =>
      rw [sourceRows, List.drop_succ_cons, List.drop_succ_cons, ih, Nat.add_right_comm,
        Nat.add_assoc]

/-- Lines before the marked one have their rows in the window. -/
theorem sourceRows_window (underline : Nat → Row) {passed : List (List Char)}
    (whole : lines = passed ++ before ++ remaining) (early : (passed ++ before).length ≤ marked) :
    sourceRows (passed.length + 1) before = (List.range' passed.length before.length).flatMap
      (windowRow lines (sourceOf lines) underline stop marked) := by
  induction before generalizing passed with
  | nil => rfl
  | cons line rest ih =>
    have later := @ih (passed ++ [line]) (by rw [whole]; simp) (by simpa using early)
    have here : lines.getD passed.length [] = line := by
      rw [whole]
      simp
    have earlier : passed.length < marked := by
      simp only [List.length_append, List.length_cons] at early
      omega
    rw [List.length_append, List.length_singleton] at later
    rw [sourceRows, List.length_cons, List.range'_succ, List.flatMap_cons,
      windowRow_before _ underline earlier, sourceOf, here, later]
    rfl

/-- The context before the marked line is the last of the lines before it. -/
theorem context_window (underline : Nat → Row) (whole : lines = before ++ remaining) :
    ((sourceRows 1 before).reverse.take context).reverse =
      (List.range' (before.length - 2) (before.length - (before.length - 2))).flatMap
        (windowRow lines (sourceOf lines) underline stop before.length) := by
  generalize first : before.length - 2 = start
  have length : (before.take start).length = start := List.length_take_of_le (by omega)
  have parts : lines = before.take start ++ before.drop start ++ remaining := by
    rw [List.take_append_drop, whole]
  have rows := @sourceRows_window _ _ _ stop before.length underline (before.take start) parts
    (by rw [List.take_append_drop])
  have two : context = 2 := rfl
  rw [length, List.length_drop] at rows
  rw [List.take_reverse, List.reverse_reverse, length_sourceRows, two, first, drop_sourceRows,
    Nat.add_comm, rows]

/-- **The rows behind the marked line** are those of the lines up to the end of the window. -/
theorem rowsBehind_window {underline : Nat → Row} {shown : Nat}
    (whole : lines = before ++ remaining) (count : before.length = marked + 1 + shown)
    (below : ∀ place, marked < place → ∀ line, lines[place]? = some line →
      underline place = caretRow 0 (min (stop - beginning lines place) line.length)) :
    rowsBehind stop (extent before : Nat) shown (before.length + 1) remaining =
      (List.range' before.length (windowEnd lines stop marked + 1 - before.length)).flatMap
        (windowRow lines (sourceOf lines) underline stop marked) := by
  have two : context = 2 := rfl
  induction remaining generalizing before shown with
  | nil =>
    have here := @le_windowEnd_iff lines stop marked before.length (by omega)
    rw [whole, List.append_nil] at here
    have empty : windowEnd lines stop marked + 1 - before.length = 0 := by
      rw [whole, List.append_nil]
      omega
    rw [empty]
    rfl
  | cons line rest ih =>
    have here := @le_windowEnd_iff lines stop marked before.length (by omega)
    have inside : lines[before.length]? = some line := by
      rw [whole, List.getElem?_append_right (Nat.le_refl _), Nat.sub_self]
      rfl
    have within : before.length < lines.length := (List.getElem?_eq_some_iff.1 inside).1
    have counted : (before ++ [line]).length = marked + 1 + (shown + 1) := by
      rw [List.length_append, List.length_singleton, count]
      rfl
    have later := ih (whole.trans (List.append_cons before line rest)) counted
    rw [extent_concat, List.length_append, List.length_singleton] at later
    rw [beginning_length whole] at here
    -- the test of the loop is that of the window, as `shown` counts the lines since the marked one
    by_cases up : before.length ≤ windowEnd lines stop marked
    · have row := below before.length (by omega) line inside
      rw [beginning_length whole] at row
      rw [range'_upTo up, List.flatMap_cons, ← later, windowRow, sourceOf,
        List.getD_eq_getElem?_getD, inside, beginning_length whole]
      by_cases reached : extent before < stop
      · rw [rowsBehind_reached (Int.ofNat_lt.2 reached), if_pos (.inr ⟨by omega, reached⟩), row]
        rfl
      · rw [rowsBehind_shown (by omega) (by omega), if_neg (by omega)]
        rfl
    · have empty : windowEnd lines stop marked + 1 - before.length = 0 := by omega
      rw [empty, rowsBehind_ended (by omega) (by omega)]
      rfl

end Places

/-- The row of carets of a line: that of the marked one, or that of a line behind it. -/
def underlineOf (lines : List (List Char)) (start stop marked place : Nat) : Row :=
  let line := lines.getD place []
  if place = marked then markedRow start stop (beginning lines place) line
  else caretRow 0 (min (stop - beginning lines place) line.length)

theorem isUnderline_underlineOf (lines : List (List Char)) (start stop marked place : Nat) :
    IsUnderline (underlineOf lines start stop marked place) := by
  unfold underlineOf
  split
  · exact isUnderline_caretRow _ _
  · exact isUnderline_caretRow _ _

theorem isNumbered_sourceOf (lines : List (List Char)) (place : Nat) :
    ∀ line ∈ lines[place]?, IsNumbered (place + 1) line (sourceOf lines place) := by
  intro line found
  rw [sourceOf, List.getD_eq_getElem?_getD, Option.mem_def.1 found]
  exact ⟨_, rfl⟩

/-- **The rows of a frame** are those of its window. -/
theorem rows_window {source line : List Char} {before behind : List (List Char)} {start : Nat}
    (marked : Marked (lines source) start before line behind) (stop : Nat) :
    rows source start stop = windowRows (lines source) (sourceOf (lines source))
      (underlineOf (lines source) start stop before.length) stop before.length := by
  let underline := underlineOf (lines source) start stop before.length
  have next := marked.whole.trans (List.append_cons before line behind)
  have inside : (lines source).getD before.length [] = line := by
    rw [marked.whole]
    simp
  have row : underlineOf (lines source) start stop before.length before.length =
      markedRow start stop (extent before : Nat) line := by
    rw [underlineOf, if_pos rfl, beginning_length marked.whole, inside]
  have around := range'_around (Nat.sub_le before.length 2)
    (@le_windowEnd _ stop _ marked.isFirst.within)
  have later := @rowsBehind_window _ _ _ stop before.length underline 0 next
    (by rw [List.length_append]; rfl) fun place after line found => by
      simp [underline, underlineOf, Nat.ne_of_gt after, found]
  rw [extent_concat, List.length_append, List.length_singleton] at later
  have earlier := @context_window _ _ _ stop underline marked.whole
  rw [rows_eq marked, earlier, later, windowRows, around, List.flatMap_append, List.flatMap_cons,
    windowRow, sourceOf, inside, if_pos (.inl rfl), row]
  rfl

/-! ### Frames of ranges -/

theorem lines_ne_nil (source : List Char) : lines source ≠ [] :=
  mt List.map_eq_nil_iff.1 (splitOn_ne_nil '\n' source)

theorem IsRowOf.ne_nil {lines : List (List Char)} {row : Row} (isRow : IsRowOf lines row) :
    row ≠ [] := by
  rcases isRow with ⟨number, line, -, rfl⟩ | ⟨blanks, carets, rfl⟩
  · simp [sourceRow]
  · simp [caretRow]

/-- There are no rows just when the range begins behind the last line. -/
theorem rows_eq_nil_iff {source : List Char} {start : Nat} {stop : Int} :
    rows source start stop = [] ↔ extent (lines source) < start := by
  constructor
  · intro none
    by_contra within
    obtain ⟨before, line, behind, marked⟩ :=
      exists_marked (lines_ne_nil source) (Nat.not_lt.1 within)
    rw [rows_eq marked] at none
    exact List.cons_ne_nil _ _ (List.append_eq_nil_iff.1 none).2
  · intro past
    exact rowsFrom_of_past_end (by rw [offsetBehind_eq]; omega)

section Frames

variable {source : String} {start stop : UInt64}

/-- A frame is the empty text just when it has no rows. -/
theorem render_eq_empty_iff :
    render source start stop = "" ↔ rows source.toList (signed start) (signed stop) = [] := by
  rw [render, String.ofList_eq_empty_iff,
    joinWith_eq_nil_iff fun row member => (isRowOf_rows row member).ne_nil]

/-- A frame is empty just when its range begins behind the last line. -/
theorem render_eq_empty_iff_past (startSmall : start.toNat < 2 ^ 63) :
    render source start stop = "" ↔
      beginning (lines source.toList) (lines source.toList).length < start.toNat := by
  rw [render_eq_empty_iff, signed_of_lt startSmall, rows_eq_nil_iff, beginning, List.take_length]

/-- The pieces of a frame that is not empty are the rows of its window. -/
theorem splitOn_render_window (startSmall : start.toNat < 2 ^ 63) (stopSmall : stop.toNat < 2 ^ 63)
    (filled : render source start stop ≠ "") :
    let all := lines source.toList
    ∃ marked, IsFirst all start.toNat marked ∧
      splitOn '\n' (render source start stop).toList = windowRows all (sourceOf all)
        (underlineOf all start.toNat stop.toNat marked) stop.toNat marked := by
  intro all
  have some := mt render_eq_empty_iff.2 filled
  have within := mt rows_eq_nil_iff.2 (signed_of_lt startSmall ▸ some)
  obtain ⟨before, line, behind, marked⟩ :=
    exists_marked (lines_ne_nil source.toList) (Nat.not_lt.1 within)
  refine ⟨before.length, marked.isFirst, ?_⟩
  rw [splitOn_render some, signed_of_lt startSmall, signed_of_lt stopSmall, rows_window marked]

/-- **The window of a frame.** A frame is empty when its range begins behind the last line, and
otherwise shows its window, with a row of carets below each of the lines that it underlines. -/
theorem render_window (startSmall : start.toNat < 2 ^ 63) (stopSmall : stop.toNat < 2 ^ 63) :
    let all := lines source.toList
    (render source start stop = "" ↔ beginning all all.length < start.toNat) ∧
      (start.toNat ≤ beginning all all.length →
        ∃ marked text underline, IsFirst all start.toNat marked ∧
          windowEnd all stop.toNat marked < all.length ∧
          (∀ place, ∀ line ∈ all[place]?, IsNumbered (place + 1) line (text place)) ∧
          (∀ place, IsUnderline (underline place)) ∧
          splitOn '\n' (render source start stop).toList =
            windowRows all text underline stop.toNat marked) := by
  intro all
  refine ⟨render_eq_empty_iff_past startSmall, fun within => ?_⟩
  have filled : render source start stop ≠ "" :=
    mt (render_eq_empty_iff_past startSmall).1 (Nat.not_lt.2 within)
  obtain ⟨marked, isFirst, rows⟩ := splitOn_render_window startSmall stopSmall filled
  exact ⟨marked, sourceOf all, underlineOf all start.toNat stop.toNat marked, isFirst,
    windowEnd_lt isFirst.within, isNumbered_sourceOf all, isUnderline_underlineOf _ _ _ _, rows⟩

end Frames

/-- A range that reaches a line behind the context, in a source with both ends of lines. -/
theorem window_behind_the_context :
    let source := "ab\r\ncd\nef\r\ngh\nij\nkl"
    let all := lines source.toList
    render source 4 13 = "1  |  ab\n2  |  cd\n   |   ^\n3  |  ef\n   |  ^^\n4  |  gh\n   |  ^^\n" ++
        "5  |  ij\n   |  ^" ∧
      windowEnd all 13 1 = 4 ∧ 4 < 2 ^ 63 ∧ 13 < 2 ^ 63 ∧ 4 ≤ beginning all all.length ∧
      ∃ marked text underline, IsFirst all 4 marked ∧ windowEnd all 13 marked < all.length ∧
        (∀ place, ∀ line ∈ all[place]?, IsNumbered (place + 1) line (text place)) ∧
        (∀ place, IsUnderline (underline place)) ∧
        splitOn '\n' (render source 4 13).toList = windowRows all text underline 13 marked := by
  intro source all
  have inside : 4 ≤ beginning all all.length := by decide +kernel
  refine ⟨by decide +kernel, by decide +kernel, by decide, by decide, inside, ?_⟩
  exact (@render_window source 4 13 (by decide) (by decide)).2 inside

end RenderLink.CodeFrame
