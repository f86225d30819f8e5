/-
**What the carets of a frame mark.**

A frame is read row by row: a row of a source line tells the number of the line, and a caret in a
row below it marks the character of that line in the same column. The carets mark the characters of
the range one by one; the only end of a line among what they mark is that of the marked line, when
the range ends there.

* `marks_rowsBehind`: the marks behind the marked line.
* `marks_rows`: **the marks of a frame** as a list.
* `marks_render`: **a frame marks the characters of its range.**
-/

import RenderLink.Proofs.CodeFrame.Rows
import Mathlib.Data.List.Intervals

namespace RenderLink.CodeFrame

open Text

/-! ### Reading a frame -/

/-- What stands before the carets of an underline row. -/
def gutter : Row := [' ', ' ', ' ', '|', ' ', ' ']

/-- The number that the row of a source line begins with. -/
def lineNumber (row : Row) : Nat := Nat.ofDigitChars 10 (row.takeWhile Char.isDigit) 0

/-- The underline rows behind their gutters, each with the number of the source line above it. -/
def underlines (above : Nat) : List Row → List (Nat × Row)
  | [] => []
  | row :: rest =>
    if gutter.isPrefixOf row then (above, row.drop gutter.length) :: underlines above rest
    else underlines (lineNumber row) rest

/-- The columns of carets, of which the first stands in a column. -/
def caretColumns (column : Nat) : List Char → List Nat
  | [] => []
  | c :: rest =>
    if c = '^' then column :: caretColumns (column + 1) rest else caretColumns (column + 1) rest

/-- The offset at which the line of a number begins. -/
def lineStart (source : List Char) (number : Nat) : Nat :=
  extent ((splitOn '\n' source).take (number - 1))

/-- The offsets that the carets below a source line mark. -/
def marksOf (source : List Char) (underline : Nat × Row) : List Nat :=
  (caretColumns 0 underline.2).map (lineStart source underline.1 + ·)

/-- The offsets of a source that the carets of a frame mark. -/
def marks (source frame : String) : List Nat :=
  (underlines 0 (splitOn '\n' frame.toList)).flatMap (marksOf source.toList)

/-- The number of the first source line with a row of carets below it. -/
def firstUnderlined? (frame : String) : Option Nat :=
  (underlines 0 (splitOn '\n' frame.toList)).head?.map Prod.fst

/-! ### Reading rows back -/

theorem lineNumber_sourceRow (number : Nat) (line : List Char) :
    lineNumber (sourceRow number line) = number := by
  have digits : ∀ c ∈ Nat.toDigits 10 number, c.isDigit = true := fun c member =>
    Nat.isDigit_of_mem_toDigits (by decide) (by decide) member
  have taken : (sourceRow number line).takeWhile Char.isDigit = Nat.toDigits 10 number := by
    unfold sourceRow
    simp only [List.append_assoc]
    rw [List.takeWhile_append_of_pos digits]
    cases 3 - (Nat.toDigits 10 number).length <;> simp [List.replicate_succ]
  rw [lineNumber, taken, Nat.ofDigitChars_toDigits (by decide) (by decide)]

theorem underlines_sourceRow (above number : Nat) (line : List Char) (rest : List Row) :
    underlines above (sourceRow number line :: rest) = underlines number rest := by
  have digit : gutter.isPrefixOf (sourceRow number line) = false := by
    unfold sourceRow
    cases digits : Nat.toDigits 10 number with
    | nil => exact absurd digits Nat.toDigits_ne_nil
    | cons first others =>
      have isDigit : first.isDigit = true :=
        Nat.isDigit_of_mem_toDigits (by decide) (by decide) (digits ▸ List.mem_cons_self)
      have visible : ' ' ≠ first := by
        rintro rfl
        exact absurd isDigit (by decide)
      simp [gutter, List.isPrefixOf, visible]
  rw [underlines, digit, lineNumber_sourceRow]
  rfl

theorem underlines_sourceRows (above number : Nat) (line : List Char) {rows : List Row}
    (source : ∀ row ∈ rows, ∃ number line, row = sourceRow number line) (rest : List Row) :
    underlines above (rows ++ sourceRow number line :: rest) = underlines number rest := by
  induction rows generalizing above with
  | nil => exact underlines_sourceRow above number line rest
  | cons row others ih =>
    obtain ⟨⟨other, text, rfl⟩, later⟩ := List.forall_mem_cons.1 source
    rw [List.cons_append, underlines_sourceRow, ih other later]

theorem underlines_caretRow (above : Nat) (blanks carets : Int) (rest : List Row) :
    underlines above (caretRow blanks carets :: rest) =
      (above, List.replicate blanks.toNat ' ' ++ List.replicate carets.toNat '^') ::
        underlines above rest := by
  simp [underlines, caretRow, gutter, List.isPrefixOf]

theorem caretColumns_carets (column carets : Nat) :
    caretColumns column (List.replicate carets '^') = List.Ico column (column + carets) := by
  induction carets generalizing column with
  | zero => exact List.Ico.self_empty.symm
  | succ carets ih =>
    have cons : List.Ico column (column + (carets + 1)) =
        column :: List.Ico (column + 1) (column + (carets + 1)) := List.Ico.eq_cons (by omega)
    rw [List.replicate_succ, caretColumns, if_pos rfl, ih, cons, Nat.add_right_comm, Nat.add_assoc]

/-- Carets behind blanks stand in consecutive columns. -/
theorem caretColumns_replicate (column blanks carets : Nat) :
    caretColumns column (List.replicate blanks ' ' ++ List.replicate carets '^') =
      List.Ico (column + blanks) (column + blanks + carets) := by
  induction blanks generalizing column with
  | zero => exact caretColumns_carets column carets
  | succ blanks ih =>
    rw [List.replicate_succ, List.cons_append, caretColumns, if_neg (by decide), ih,
      Nat.add_right_comm, Nat.add_assoc column]

/-! ### The characters of lines -/

/-- The offsets of the characters of lines, of which the first begins at an offset. -/
def offsetsFrom (offset : Nat) : List (List Char) → List Nat
  | [] => []
  | line :: rest =>
    List.Ico offset (offset + line.length) ++ offsetsFrom (offset + line.length + 1) rest

theorem offsetsFrom_append (offset : Nat) (first second : List (List Char)) :
    offsetsFrom offset (first ++ second) =
      offsetsFrom offset first ++ offsetsFrom (offset + extent first) second := by
  induction first generalizing offset with
  | nil => rfl
  | cons line rest ih =>
    rw [List.cons_append, offsetsFrom, offsetsFrom, ih, List.append_assoc, extent_cons]
    simp only [Nat.add_assoc]

theorem bounds_of_mem_offsetsFrom {offset place : Nat} {lines : List (List Char)}
    (member : place ∈ offsetsFrom offset lines) :
    offset ≤ place ∧ place < offset + extent lines := by
  induction lines generalizing offset with
  | nil => exact absurd member List.not_mem_nil
  | cons line rest ih =>
    rw [extent_cons]
    rcases List.mem_append.1 member with here | later
    · have := List.Ico.mem.1 here
      omega
    · have := ih later
      omega

/-- Lines that begin at an offset or behind it have no character before it. -/
theorem filter_offsetsFrom_of_le {offset stop : Nat} {lines : List (List Char)}
    (behind : stop ≤ offset) : (offsetsFrom offset lines).filter (· < stop) = [] := by
  refine List.filter_eq_nil_iff.2 fun place member => ?_
  have bounds := bounds_of_mem_offsetsFrom member
  rw [decide_eq_true_iff]
  omega

theorem filter_Ico (low high start stop : Nat) :
    ((List.Ico low high).filter fun place => start ≤ place ∧ place < stop) =
      List.Ico (max low start) (min high stop) := by
  rw [← List.Ico.filter_lt, ← List.Ico.filter_le, List.filter_filter]
  exact List.filter_congr fun place _ => by rw [Bool.decide_and, Bool.and_comm]

/-- The offsets of the characters of lines are those of a text without the ends of its lines. -/
theorem offsetsFrom_splitOn (offset : Nat) (text : List Char) :
    offsetsFrom offset (splitOn '\n' text) =
      ((text.zipIdx offset).filter fun entry => entry.1 ≠ '\n').map Prod.snd := by
  induction text generalizing offset with
  | nil => simp [splitOn, offsetsFrom]
  | cons c rest ih =>
    rw [List.zipIdx_cons, splitOn]
    split
    · next ends =>
      simp [offsetsFrom, ends, ih]
    · next inside =>
      have later := ih (offset + 1)
      cases pieces : splitOn '\n' rest with
      | nil => exact absurd pieces (splitOn_ne_nil '\n' rest)
      | cons piece others =>
        rw [pieces, offsetsFrom] at later
        have cons : List.Ico offset (offset + (piece.length + 1)) =
            offset :: List.Ico (offset + 1) (offset + (piece.length + 1)) :=
          List.Ico.eq_cons (by omega)
        have sum : offset + 1 + piece.length = offset + (piece.length + 1) := by omega
        rw [sum] at later
        simpa [offsetsFrom, cons, inside] using later

/-! ### The marks of a frame -/

section Marks

variable {source line : List Char} {before behind remaining : List (List Char)}

theorem lineStart_eq (whole : splitOn '\n' source = before ++ remaining) :
    lineStart source (before.length + 1) = extent before := by
  rw [lineStart, whole, Nat.add_sub_cancel, List.take_left]

/-- Carets behind blanks mark consecutive offsets. -/
theorem marksOf_caretRow (whole : splitOn '\n' source = before ++ remaining)
    (blanks carets : Nat) :
    marksOf source (before.length + 1, List.replicate blanks ' ' ++ List.replicate carets '^') =
      List.Ico (extent before + blanks) (extent before + blanks + carets) := by
  rw [marksOf, caretColumns_replicate, lineStart_eq whole, List.Ico.map_add]
  congr 1 <;> omega

/-- The rows behind the marked line mark the characters of their lines up to the end of the
range. -/
theorem marks_rowsBehind {stop above shown : Nat}
    (whole : splitOn '\n' source = before ++ remaining) :
    (underlines above (rowsBehind stop (extent before : Nat) shown (before.length + 1)
        remaining)).flatMap (marksOf source) =
      (offsetsFrom (extent before) remaining).filter (· < stop) := by
  induction remaining generalizing before above shown with
  | nil => rfl
  | cons line rest ih =>
    have later : ∀ above, (underlines above (rowsBehind stop (extent before + line.length + 1 : Nat)
          (shown + 1) (before.length + 1 + 1) rest)).flatMap (marksOf source) =
        (offsetsFrom (extent before + line.length + 1) rest).filter (· < stop) := fun above => by
      have behind := @ih _ above (shown + 1) (whole.trans (List.append_cons before line rest))
      rwa [extent_concat, List.length_append, List.length_singleton] at behind
    rw [offsetsFrom, List.filter_append, List.Ico.filter_lt]
    by_cases reached : extent before < stop
    · have marked : marksOf source (before.length + 1, List.replicate (0 : Int).toNat ' ' ++
          List.replicate (min ((stop : Int) - (extent before : Nat)) line.length).toNat '^') =
          List.Ico (extent before) (min (extent before + line.length) stop) := by
        rw [marksOf_caretRow whole]
        congr 1
        omega
      rw [rowsBehind_reached (Int.ofNat_lt.2 reached), underlines_sourceRow, underlines_caretRow,
        List.flatMap_cons, marked, later]
    · -- behind the range a line is shown for context at most, and nothing is marked
      have ended : (stop : Int) ≤ (extent before : Nat) := Int.ofNat_le.2 (Nat.not_lt.1 reached)
      have none : List.Ico (extent before) (min (extent before + line.length) stop) = [] :=
        List.Ico.eq_nil_of_le (by omega)
      rw [none, List.nil_append]
      by_cases few : shown < context
      · rw [rowsBehind_shown few ended, underlines_sourceRow, later]
      · rw [rowsBehind_ended (Nat.not_lt.1 few) ended, filter_offsetsFrom_of_le (by omega)]
        rfl

variable {start stop : Nat}

/-- The underline rows of a frame: first that of the marked line. -/
theorem underlines_rows (marked : Marked (lines source) start before line behind) :
    underlines 0 (rows source start stop) =
      (before.length + 1, List.replicate (start - extent before) ' ' ++
        List.replicate (if extent before + line.length + 1 < stop then
          line.length - (start - extent before) else stop - start) '^') ::
      underlines (before.length + 1) (rowsBehind stop (extent before + line.length + 1 : Nat) 0
        (before.length + 1 + 1) behind) := by
  have sources : ∀ row ∈ ((sourceRows 1 before).reverse.take context).reverse,
      ∃ number line, row = sourceRow number line := fun row member =>
    exists_sourceRow_of_mem row
      (List.mem_reverse.1 (List.mem_of_mem_take (List.mem_reverse.1 member)))
  have anchored := marked.anchored
  rw [rows_eq marked, underlines_sourceRows _ _ _ sources, markedRow, underlines_caretRow]
  congr 4
  · omega
  · split_ifs <;> omega

/-- The carets of the marked line mark its characters in the range, and its end if the range is not
empty and ends there. -/
theorem marks_marked {begin length : Nat} (anchored : begin ≤ start)
    (reached : start ≤ begin + length + 1) (ordered : start ≤ stop) :
    List.Ico (begin + (start - begin)) (begin + (start - begin) +
        if begin + length + 1 < stop then length - (start - begin) else stop - start) =
      List.Ico (max begin start) (min (begin + length) stop) ++
        if start < stop ∧ stop = begin + length + 1 then [begin + length] else [] := by
  rw [Nat.add_sub_cancel' anchored, Nat.max_eq_right anchored]
  by_cases ends : start < stop ∧ stop = begin + length + 1
  · obtain ⟨proper, rfl⟩ := ends
    rw [if_neg (Nat.lt_irrefl _), if_pos ⟨proper, rfl⟩, Nat.add_sub_cancel' ordered,
      Nat.min_eq_left (Nat.le_succ _), List.Ico.succ_top (Nat.le_of_lt_succ proper)]
  · rw [if_neg ends, List.append_nil]
    -- a start right behind the line asks for more blanks than the line has characters
    by_cases behind : start = begin + length + 1
    · rw [List.Ico.eq_nil_of_le (show min (begin + length) stop ≤ start by omega),
        List.Ico.eq_nil_of_le]
      split_ifs <;> omega
    · congr 1
      split_ifs <;> omega

/-- Of the characters of all lines the range has none before the marked line, and those behind it up
to the end of the range. -/
theorem filter_offsetsFrom (marked : Marked (splitOn '\n' source) start before line behind) :
    ((offsetsFrom 0 (splitOn '\n' source)).filter fun place => start ≤ place ∧ place < stop) =
      List.Ico (max (extent before) start) (min (extent before + line.length) stop) ++
        (offsetsFrom (extent before + line.length + 1) behind).filter (· < stop) := by
  have noneBefore : (offsetsFrom 0 before).filter (fun place => start ≤ place ∧ place < stop) =
      [] := by
    refine List.filter_eq_nil_iff.2 fun place member => ?_
    have bounds := bounds_of_mem_offsetsFrom member
    have anchored := marked.anchored
    rw [decide_eq_true_iff]
    omega
  have allBehind : (offsetsFrom (extent before + line.length + 1) behind).filter
        (fun place => start ≤ place ∧ place < stop) =
      (offsetsFrom (extent before + line.length + 1) behind).filter (· < stop) := by
    refine List.filter_congr fun place member => ?_
    have bounds := bounds_of_mem_offsetsFrom member
    have passed : start ≤ place := Nat.le_trans marked.reached bounds.1
    simp [passed]
  rw [marked.whole, offsetsFrom_append, offsetsFrom, List.filter_append, List.filter_append,
    noneBefore, Nat.zero_add, allBehind, filter_Ico, List.nil_append]

/-- **The marks of a frame**: the characters of the range, and the end of the marked line if the
range is not empty and ends there. -/
theorem marks_rows (noReturn : '\r' ∉ source)
    (marked : Marked (splitOn '\n' source) start before line behind) (ordered : start ≤ stop) :
    (underlines 0 (rows source start stop)).flatMap (marksOf source) =
      ((offsetsFrom 0 (splitOn '\n' source)).filter fun place => start ≤ place ∧ place < stop) ++
        if start < stop ∧ stop = extent before + line.length + 1 then [extent before + line.length]
        else [] := by
  have later := @marks_rowsBehind _ _ _ stop (before.length + 1) 0
    (marked.whole.trans (List.append_cons before line behind))
  rw [extent_concat, List.length_append, List.length_singleton] at later
  rw [underlines_rows (lines_of_no_return noReturn ▸ marked), List.flatMap_cons, later,
    marksOf_caretRow marked.whole, filter_offsetsFrom marked,
    marks_marked marked.anchored marked.reached ordered, List.append_assoc, List.append_assoc]
  by_cases ends : start < stop ∧ stop = extent before + line.length + 1
  · rw [filter_offsetsFrom_of_le (Nat.le_of_eq ends.2), List.append_nil, List.nil_append]
  · rw [if_neg ends, List.nil_append, List.append_nil]

/-- The end of a line is no character of the lines. -/
theorem end_not_mem_offsetsFrom (whole : splitOn '\n' source = before ++ line :: behind) :
    extent before + line.length ∉ offsetsFrom 0 (splitOn '\n' source) := by
  rw [whole, offsetsFrom_append, offsetsFrom, List.mem_append, List.mem_append, List.Ico.mem]
  rintro (earlier | here | later)
  · have := bounds_of_mem_offsetsFrom earlier
    omega
  · omega
  · have := bounds_of_mem_offsetsFrom later
    omega

/-- The first underlined line of a frame, and what the frame marks. -/
theorem exists_underlined (noReturn : '\r' ∉ source) (room : start ≤ source.length + 1)
    (ordered : start ≤ stop) :
    ∃ number finish,
      (underlines 0 (rows source start stop)).head?.map Prod.fst = some number ∧
      lineStart source (number + 1) = finish + 1 ∧
      finish ∉ offsetsFrom 0 (splitOn '\n' source) ∧
      (underlines 0 (rows source start stop)).flatMap (marksOf source) =
        ((offsetsFrom 0 (splitOn '\n' source)).filter fun place => start ≤ place ∧ place < stop) ++
          if start < stop ∧ stop = finish + 1 then [finish] else [] := by
  obtain ⟨before, line, behind, marked⟩ :=
    exists_marked (splitOn_ne_nil '\n' source) (extent_splitOn source ▸ room)
  refine ⟨before.length + 1, extent before + line.length, ?_, ?_,
    end_not_mem_offsetsFrom marked.whole, marks_rows noReturn marked ordered⟩
  · rw [underlines_rows (lines_of_no_return noReturn ▸ marked)]
    rfl
  · have next := lineStart_eq (marked.whole.trans (List.append_cons before line behind))
    rwa [extent_concat, List.length_append, List.length_singleton] at next

end Marks

/-! ### Frames of ranges -/

/-- A character that does not end a line is one of those of the lines, and no end of a line is. -/
theorem mem_offsetsFrom_iff {text : List Char} {place : Nat} {c : Char}
    (found : text[place]? = some c) : place ∈ offsetsFrom 0 (splitOn '\n' text) ↔ c ≠ '\n' := by
  rw [offsetsFrom_splitOn, List.mem_map]
  constructor
  · rintro ⟨⟨d, _⟩, member, rfl⟩
    obtain ⟨among, other⟩ := List.mem_filter.1 member
    rw [List.mk_mem_zipIdx_iff_getElem?, found] at among
    obtain rfl := Option.some.inj among
    exact of_decide_eq_true other
  · intro other
    refine ⟨(c, place), List.mem_filter.2 ⟨?_, decide_eq_true other⟩, rfl⟩
    rwa [List.mk_mem_zipIdx_iff_getElem?]

theorem nodup_offsetsFrom (text : List Char) : (offsetsFrom 0 (splitOn '\n' text)).Nodup := by
  rw [offsetsFrom_splitOn]
  refine (List.filter_sublist.map Prod.snd).nodup ?_
  rw [List.zipIdx_map_snd]
  exact List.nodup_range'

/-- The carets of a frame mark a range of its source: offsets of the range, each once, namely those
of its characters that end no line, and the end of the first underlined line if the range is not
empty and ends right behind it. -/
structure MarksRange (source frame : String) (start stop : Nat) : Prop where
  once : (marks source frame).Nodup
  within : ∀ offset ∈ marks source frame, start ≤ offset ∧ offset < stop
  characters : ∀ offset c, source.toList[offset]? = some c → c ≠ '\n' →
    (offset ∈ marks source frame ↔ start ≤ offset ∧ offset < stop)
  lineEnds : ∀ offset, source.toList[offset]? = some '\n' →
    (offset ∈ marks source frame ↔ start < stop ∧ stop = offset + 1 ∧
      ∃ number, firstUnderlined? frame = some number ∧
        lineStart source.toList (number + 1) = offset + 1)

/-- A text with the rows of a frame marks the range of the frame. -/
theorem marksRange_of_rows {source frame : String} {start stop : Nat}
    (noReturn : '\r' ∉ source.toList) (room : start ≤ source.length + 1) (ordered : start ≤ stop)
    (lines : splitOn '\n' frame.toList = rows source.toList start stop) :
    MarksRange source frame start stop := by
  rw [← String.length_toList] at room
  obtain ⟨number, finish, underlined, next, noCharacter, listed⟩ :=
    exists_underlined noReturn room ordered
  rw [← lines] at underlined listed
  have marked : marks source frame = _ := listed
  have mem_marks : ∀ offset, offset ∈ marks source frame ↔
      (offset ∈ offsetsFrom 0 (splitOn '\n' source.toList) ∧ start ≤ offset ∧ offset < stop) ∨
        ((start < stop ∧ stop = finish + 1) ∧ offset = finish) := fun offset => by
    rw [marked, List.mem_append, List.mem_filter, decide_eq_true_iff, List.mem_ite_nil_right,
      List.mem_singleton]
  refine ⟨?_, fun offset member => ?_, fun offset c found other => ?_, fun offset found => ?_⟩
  · rw [marked, List.nodup_append]
    refine ⟨(nodup_offsetsFrom source.toList).filter _, by split_ifs <;> simp, ?_⟩
    rintro offset character _ lineEnd rfl
    obtain ⟨-, only⟩ := List.mem_ite_nil_right.1 lineEnd
    exact noCharacter (List.mem_singleton.1 only ▸ (List.mem_filter.1 character).1)
  · rcases (mem_marks offset).1 member with ⟨-, inRange⟩ | ⟨⟨proper, behind⟩, rfl⟩
    · exact inRange
    · omega
  · have character := (mem_offsetsFrom_iff found).2 other
    rw [mem_marks]
    constructor
    · rintro (⟨-, inRange⟩ | ⟨-, rfl⟩)
      · exact inRange
      · exact absurd character noCharacter
    · exact fun inRange => .inl ⟨character, inRange⟩
  · have noOther : offset ∉ offsetsFrom 0 (splitOn '\n' source.toList) := fun character =>
      (mem_offsetsFrom_iff found).1 character rfl
    rw [mem_marks]
    constructor
    · rintro (⟨character, -⟩ | ⟨⟨proper, behind⟩, rfl⟩)
      · exact absurd character noOther
      · exact ⟨proper, behind, number, underlined, next⟩
    · rintro ⟨proper, behind, other, isOther, start⟩
      obtain rfl : number = other := Option.some.inj (underlined.symm.trans isOther)
      have same : offset = finish := by omega
      exact .inr ⟨⟨proper, same ▸ behind⟩, same⟩

variable {source : String} {start stop : UInt64} {first last : Nat}

/-- The rows of the frame of a range that does not begin behind the last line. -/
theorem splitOn_render_eq (noReturn : '\r' ∉ source.toList) (isFirst : signed start = first)
    (isLast : signed stop = last) (room : first ≤ source.length + 1) (ordered : first ≤ last) :
    splitOn '\n' (render source start stop).toList = rows source.toList first last := by
  have filled : rows source.toList first last ≠ [] := by
    intro none
    obtain ⟨number, -, underlined, -⟩ :=
      exists_underlined noReturn (String.length_toList.symm ▸ room) ordered
    rw [none] at underlined
    cases underlined
  rw [← isFirst, ← isLast] at filled ⊢
  exact splitOn_render filled

/-- **A frame marks the characters of its range**, which begins in the source or right behind it and
has signed numbers for its ends. -/
theorem marks_render (noReturn : '\r' ∉ source.toList) (isFirst : signed start = first)
    (isLast : signed stop = last) (room : first ≤ source.length + 1) (ordered : first ≤ last) :
    MarksRange source (render source start stop) first last :=
  marksRange_of_rows noReturn room ordered
    (splitOn_render_eq noReturn isFirst isLast room ordered)

/-- A range of three lines, of which one is empty, without the ends of its lines. -/
theorem marks_across_an_empty_line :
    let frame := render "ab\n\ncd\nef" 1 5
    frame = "1  |  ab\n   |   ^\n2  |  \n   |  \n3  |  cd\n   |  ^" ∧
      marks "ab\n\ncd\nef" frame = [1, 4] ∧ MarksRange "ab\n\ncd\nef" frame 1 5 := by
  intro frame
  have shown : frame = "1  |  ab\n   |   ^\n2  |  \n   |  \n3  |  cd\n   |  ^" := by
    decide +kernel
  refine ⟨shown, ?_, marks_render (by decide) rfl rfl (by decide) (by decide)⟩
  rw [shown]
  decide +kernel

end RenderLink.CodeFrame
