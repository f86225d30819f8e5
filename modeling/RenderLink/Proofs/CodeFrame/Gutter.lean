/-
**The gutters of a frame.**

Left of its text a row has a gutter: the number of a line in three columns or more, or three blanks
in a row of carets, and then a bar and two blanks. A number below 1000 takes no more than its three
columns; from there on the gutter of a line is wider than that of the carets below it, which stand
too far to the left.

* `gutterWidth_sourceRow_eq_iff`: a line has the gutter of a row of carets just when its number is
  below 1000.
* `aligned_render_iff`: **the rows of a frame line up** just when the last of its lines has a number
  below 1000.
-/

import RenderLink.Proofs.CodeFrame.Window

namespace RenderLink.CodeFrame

open Text

/-- The columns of a row up to its bar, that of the bar and those of the two blanks behind it. -/
def gutterWidth (row : Row) : Nat := (row.takeWhile (· ≠ '|')).length + 3

/-- All rows have gutters of one width. -/
def Aligned (rows : List Row) : Prop := ∃ width, ∀ row ∈ rows, gutterWidth row = width

/-! ### The gutter of a row -/

theorem gutterWidth_append {front : Row} (free : '|' ∉ front) (text : Row) :
    gutterWidth (front ++ '|' :: text) = front.length + 3 := by
  have before : ∀ c ∈ front, decide (c ≠ '|') = true := fun c inside =>
    decide_eq_true fun bar => free (bar ▸ inside)
  rw [gutterWidth, List.takeWhile_append_of_pos before, List.takeWhile_cons_of_neg (by decide),
    List.append_nil]

/-- A number has three columns or as many as it needs. -/
theorem gutterWidth_sourceRow (number : Nat) (line : List Char) :
    gutterWidth (sourceRow number line) = max 3 (Nat.toDigits 10 number).length + 3 := by
  have digits : ∀ c ∈ Nat.toDigits 10 number, c.isDigit = true := fun c member =>
    Nat.isDigit_of_mem_toDigits (by decide) (by decide) member
  have free : '|' ∉ Nat.toDigits 10 number ++
      List.replicate (3 - (Nat.toDigits 10 number).length) ' ' := by
    rw [List.mem_append]
    rintro (digit | blank)
    · exact absurd (digits _ digit) (by decide)
    · exact absurd (List.eq_of_mem_replicate blank) (by decide)
  unfold sourceRow
  rw [List.append_assoc _ ['|', ' ', ' '] line]
  show gutterWidth (_ ++ '|' :: _) = _
  rw [gutterWidth_append free, List.length_append, List.length_replicate]
  omega

theorem IsUnderline.gutterWidth_eq {row : Row} (isUnderline : IsUnderline row) :
    gutterWidth row = 6 := by
  obtain ⟨blanks, carets, rfl⟩ := isUnderline
  exact @gutterWidth_append [' ', ' ', ' '] (by decide) _

/-- The numbers of no more than three digits are those below 1000. -/
theorem gutterWidth_sourceRow_eq_iff {number : Nat} {line : List Char} :
    gutterWidth (sourceRow number line) = 6 ↔ number < 1000 := by
  have digits : (Nat.toDigits 10 number).length ≤ 3 ↔ number < 10 ^ 3 :=
    Nat.length_toDigits_le_iff (by decide) (by decide)
  rw [gutterWidth_sourceRow]
  omega

/-! ### The gutters of a window -/

section Window

variable {lines : List (List Char)} {text underline : Nat → Row} {stop marked : Nat} {row : Row}

theorem mem_windowRow {place : Nat}
    (member : row ∈ windowRow lines text underline stop marked place) :
    row = text place ∨ row = underline place := by
  rw [windowRow, List.mem_cons, List.mem_ite_nil_right, List.mem_singleton] at member
  exact member.imp_right And.right

/-- **The rows of a window line up** just when the number of its last line is below 1000: a row of
carets is always among them. -/
theorem aligned_windowRows_iff (within : marked < lines.length)
    (isUnderline : ∀ place, IsUnderline (underline place)) :
    Aligned (windowRows lines (sourceOf lines) underline stop marked) ↔
      windowEnd lines stop marked + 1 < 1000 := by
  have shown : marked ≤ windowEnd lines stop marked := le_windowEnd within
  constructor
  · rintro ⟨width, same⟩
    have caretsIn : underline marked ∈
        windowRows lines (sourceOf lines) underline stop marked := by
      refine List.mem_flatMap.2 ⟨marked, List.mem_range'_1.2 (by omega), ?_⟩
      rw [windowRow, if_pos (.inl rfl)]
      exact List.mem_cons_of_mem _ List.mem_cons_self
    have lastIn : sourceOf lines (windowEnd lines stop marked) ∈
        windowRows lines (sourceOf lines) underline stop marked :=
      List.mem_flatMap.2 ⟨_, List.mem_range'_1.2 (by omega), List.mem_cons_self⟩
    have carets : 6 = width := (isUnderline marked).gutterWidth_eq ▸ same _ caretsIn
    exact gutterWidth_sourceRow_eq_iff.1 (carets ▸ same _ lastIn)
  · intro small
    refine ⟨6, fun row member => ?_⟩
    obtain ⟨place, among, here⟩ := List.mem_flatMap.1 member
    rcases mem_windowRow here with rfl | rfl
    · have upTo := List.mem_range'_1.1 among
      exact gutterWidth_sourceRow_eq_iff.2 (by omega)
    · exact (isUnderline place).gutterWidth_eq

end Window

/-! ### Frames of ranges -/

/-- **The gutters of a frame.** Rows of lines have the columns of their numbers, three at least, and
rows of carets have three; they line up just when the number of the last line is below 1000. -/
theorem aligned_render_iff {source : String} {start stop : UInt64}
    (startSmall : start.toNat < 2 ^ 63) (stopSmall : stop.toNat < 2 ^ 63)
    (filled : render source start stop ≠ "") :
    let all := lines source.toList
    let frame := splitOn '\n' (render source start stop).toList
    ∃ marked text underline, IsFirst all start.toNat marked ∧
      frame = windowRows all text underline stop.toNat marked ∧
      (∀ place, gutterWidth (text place) = max 3 (Nat.toDigits 10 (place + 1)).length + 3) ∧
      (∀ place, gutterWidth (underline place) = 6) ∧
      (Aligned frame ↔ windowEnd all stop.toNat marked + 1 < 1000) := by
  intro all frame
  obtain ⟨marked, isFirst, rows⟩ := splitOn_render_window startSmall stopSmall filled
  have isUnderline := isUnderline_underlineOf all start.toNat stop.toNat marked
  refine ⟨marked, sourceOf all, underlineOf all start.toNat stop.toNat marked, isFirst, rows,
    fun place => gutterWidth_sourceRow _ _, fun place => (isUnderline place).gutterWidth_eq, ?_⟩
  show Aligned (splitOn '\n' (render source start stop).toList) ↔ _
  rw [rows]
  exact aligned_windowRows_iff isFirst.within isUnderline

/-- A range of three lines under numbers of one digit. -/
theorem aligned_small_numbers :
    let frame := splitOn '\n' (render "ab\n\ncd" 1 5).toList
    let all := lines "ab\n\ncd".toList
    1 < 2 ^ 63 ∧ 5 < 2 ^ 63 ∧ render "ab\n\ncd" 1 5 ≠ "" ∧
      ∃ marked text underline, IsFirst all 1 marked ∧
        frame = windowRows all text underline 5 marked ∧
        (∀ place, gutterWidth (text place) = max 3 (Nat.toDigits 10 (place + 1)).length + 3) ∧
        (∀ place, gutterWidth (underline place) = 6) ∧
        (Aligned frame ↔ windowEnd all 5 marked + 1 < 1000) := by
  intro frame all
  have filled : render "ab\n\ncd" 1 5 ≠ "" := by decide +kernel
  exact ⟨by decide, by decide, filled, aligned_render_iff (by decide) (by decide) filled⟩

/-- Line 1000 has a number of four columns, and the caret of its second character stands below the
first. -/
theorem gutter_of_thousandth_line :
    let source := String.ofList (List.replicate 999 '\n' ++ ['x', 'y'])
    render source 1000 1001 = "998|  \n999|  \n1000|  xy\n   |   ^" ∧
      ¬ Aligned (splitOn '\n' (render source 1000 1001).toList) := by
  intro source
  have shown : rows source.toList (signed 1000) (signed 1001) =
      [sourceRow 998 [], sourceRow 999 [], sourceRow 1000 ['x', 'y'], caretRow 1 1] := by
    rw [String.toList_ofList]
    decide +kernel
  constructor
  · rw [render, shown]
    decide +kernel
  · have filled : rows source.toList (signed 1000) (signed 1001) ≠ [] :=
      shown ▸ List.cons_ne_nil _ _
    rw [splitOn_render filled, shown]
    rintro ⟨width, same⟩
    have number : 7 = width := same (sourceRow 1000 ['x', 'y']) (by simp)
    have carets : 6 = width := same (caretRow 1 1) (by simp)
    omega

end RenderLink.CodeFrame
