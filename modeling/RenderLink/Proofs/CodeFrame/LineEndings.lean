/-
**Frames of texts with carriage returns.**

A carriage return before a line feed belongs to no line, and offsets do not count it: a text with
carriage returns has the same frames as without them, at the same offsets. An offset that counts the
carriage returns before it therefore means a place further on, and a frame for such offsets is
another one as soon as a line feed stands before a range that begins with a character of a line.

* `lines_withReturns`: carriage returns change no line.
* `render_withReturns`: **frames with and without carriage returns**.
-/

import RenderLink.Proofs.CodeFrame.Marks

namespace RenderLink.CodeFrame

open Text

/-! ### Carriage returns -/

/-- A text with a carriage return before every line feed. -/
def withReturns (source : String) : String :=
  String.ofList (source.toList.flatMap fun c => if c = '\n' then ['\r', '\n'] else [c])

/-- The offset of a place when the carriage returns before it count. -/
def shifted (source : String) (offset : Nat) : Nat :=
  offset + (source.toList.take offset).count '\n'

theorem stripReturn_cons {c : Char} (other : c ≠ '\r') (line : List Char) :
    stripReturn (c :: line) = c :: stripReturn line := by
  cases line with
  | nil => simp [stripReturn, other]
  | cons d rest =>
    simp only [stripReturn, List.getLast?_cons_cons]
    split <;> rfl

theorem lines_newline (text : List Char) : lines ('\n' :: text) = [] :: lines text := rfl

theorem lines_return_newline (text : List Char) :
    lines ('\r' :: '\n' :: text) = [] :: lines text := rfl

/-- A character that ends no line stands at the beginning of the first line. -/
theorem lines_cons {c : Char} (inLine : c ≠ '\n') (other : c ≠ '\r') (text : List Char) :
    lines (c :: text) = (lines text).modifyHead (c :: ·) := by
  rw [lines, splitOn, if_neg inLine, lines]
  cases pieces : splitOn '\n' text with
  | nil => exact absurd pieces (splitOn_ne_nil '\n' text)
  | cons piece others => simp [stripReturn_cons other]

/-- Carriage returns change no line. -/
theorem lines_withReturns {text : List Char} (noReturn : '\r' ∉ text) :
    lines (text.flatMap fun c => if c = '\n' then ['\r', '\n'] else [c]) = lines text := by
  induction text with
  | nil => rfl
  | cons c rest ih =>
    rw [List.mem_cons, not_or] at noReturn
    have later := ih noReturn.2
    rw [List.flatMap_cons]
    by_cases ends : c = '\n'
    · rw [if_pos ends, ends, List.cons_append, List.singleton_append, lines_return_newline, later,
        lines_newline]
    · rw [if_neg ends, List.singleton_append, lines_cons ends (Ne.symm noReturn.1), later,
        lines_cons ends (Ne.symm noReturn.1)]

/-! ### Frames -/

variable {source : String} {start stop shiftedStart shiftedStop : UInt64} {first last : Nat}

theorem render_withReturns_same (noReturn : '\r' ∉ source.toList) (start stop : UInt64) :
    render (withReturns source) start stop = render source start stop := by
  rw [render, rows, withReturns, String.toList_ofList, lines_withReturns noReturn]
  rfl

/-- No caret of a frame marks an offset before the range. -/
theorem le_of_mem_marks (noReturn : '\r' ∉ source.toList) (isFirst : signed start = first)
    (isLast : signed stop = last) (ordered : first ≤ last) :
    ∀ offset ∈ marks source (render source start stop), first ≤ offset := by
  intro offset member
  by_cases room : first ≤ source.length + 1
  · have range := marksRange_of_rows noReturn room ordered
      (splitOn_render_eq noReturn isFirst isLast room ordered)
    exact (range.within offset member).1
  · have past : offsetBehind 0 (lines source.toList) < signed start := by
      rw [offsetBehind_eq, lines_of_no_return noReturn, extent_splitOn, isFirst,
        String.length_toList]
      omega
    rw [render_of_past_end past] at member
    exact absurd member List.not_mem_nil

theorem shifted_le_shifted (ordered : first ≤ last) :
    shifted source first ≤ shifted source last :=
  Nat.add_le_add ordered ((List.take_sublist_take_left ordered).count_le '\n')

theorem shifted_eq (noneBefore : '\n' ∉ source.toList.take first) :
    shifted source first = first := by
  rw [shifted, List.count_eq_zero.2 noneBefore, Nat.add_zero]

theorem lt_shifted (someBefore : '\n' ∈ source.toList.take first) :
    first < shifted source first :=
  Nat.lt_add_of_pos_right (List.count_pos_iff.2 someBefore)

/-- Equal signed numbers give the same frame. -/
theorem render_congr (sameStart : signed shiftedStart = signed start)
    (sameStop : signed shiftedStop = signed stop) :
    render source shiftedStart shiftedStop = render source start stop := by
  rw [render, sameStart, sameStop, render]

/-- **Frames with and without carriage returns.** At the same offsets they are the same. Offsets
that count the carriage returns give the same frame, too, if no line feed stands before the end of
the range, and another one if a line feed stands before a range that begins with a character of a
line. -/
theorem render_withReturns (noReturn : '\r' ∉ source.toList) :
    (∀ start stop, render (withReturns source) start stop = render source start stop) ∧
      ∀ (start stop shiftedStart shiftedStop : UInt64) (first last : Nat),
        signed start = first → signed stop = last →
        signed shiftedStart = shifted source first → signed shiftedStop = shifted source last →
        first ≤ last →
        ('\n' ∉ source.toList.take last →
          render (withReturns source) shiftedStart shiftedStop = render source start stop) ∧
        (first < last → '\n' ∈ source.toList.take first →
          (∃ c, source.toList[first]? = some c ∧ c ≠ '\n') →
          render (withReturns source) shiftedStart shiftedStop ≠ render source start stop) := by
  refine ⟨render_withReturns_same noReturn, fun start stop shiftedStart shiftedStop first last
    isFirst isLast isShiftedFirst isShiftedLast ordered => ⟨fun noneBefore => ?_,
    fun proper someBefore ⟨c, found, inLine⟩ same => ?_⟩⟩
  · rw [render_withReturns_same noReturn]
    have noneBeforeFirst : '\n' ∉ source.toList.take first := fun inside =>
      noneBefore (List.take_subset_take_left source.toList ordered inside)
    rw [shifted_eq noneBeforeFirst, ← isFirst] at isShiftedFirst
    rw [shifted_eq noneBefore, ← isLast] at isShiftedLast
    exact render_congr isShiftedFirst isShiftedLast
  · rw [render_withReturns_same noReturn] at same
    have inside : first < source.length := by
      rw [← String.length_toList]
      exact (List.getElem?_eq_some_iff.1 found).1
    have room : first ≤ source.length + 1 := by omega
    have range := marksRange_of_rows noReturn room ordered
      (splitOn_render_eq noReturn isFirst isLast room ordered)
    have marked : first ∈ marks source (render source start stop) :=
      (range.characters first c found inLine).2 ⟨Nat.le_refl first, proper⟩
    rw [← same] at marked
    have behind := le_of_mem_marks noReturn isShiftedFirst isShiftedLast
      (shifted_le_shifted ordered) first marked
    exact absurd (lt_shifted someBefore) (Nat.not_lt.2 behind)

/-- The frame of the second line is another one for offsets that count the carriage return. -/
theorem frame_on_second_line_moves :
    render (withReturns "a\nb") 3 4 ≠ render "a\nb" 2 3 ∧
      render (withReturns "a\nb") 2 3 = render "a\nb" 2 3 := by
  obtain ⟨same, counted⟩ := @render_withReturns "a\nb" (by decide)
  exact ⟨(counted 2 3 3 4 2 3 rfl rfl rfl rfl (by decide)).2 (by decide) (by decide)
    ⟨'b', rfl, by decide⟩, same 2 3⟩

/-- A caret under the character b is behind it when the offsets count the carriage return. -/
theorem frame_depends_on_returns :
    withReturns "a\nb" = "a\r\nb" ∧ shifted "a\nb" 2 = 3 ∧ shifted "a\nb" 3 = 4 ∧
      render "a\nb" 2 3 = "1  |  a\n   |    \n2  |  b\n   |  ^" ∧
      render "a\r\nb" 3 4 = "1  |  a\n2  |  b\n   |   ^" ∧
      render "a\r\nb" 3 4 ≠ render "a\nb" 2 3 := by
  decide +kernel

end RenderLink.CodeFrame
