/-
**Pieces between marks.**

The pieces between the marks of a list hold no mark, and pieces without a mark are found again
between the marks that join them. A text can be cut at an ASCII character before it is written in
UTF-8 or afterwards.

* `splitOn_joinWith`: **pieces without a mark** are the pieces of what they are joined to.
* `splitOn_encode`: cutting and writing in UTF-8 in either order.
-/

import RenderLink.Proofs.Text.Utf8
import RenderLink.Text.Lines

namespace RenderLink.Text

variable {α : Type} {mark : α} {piece : List α} {pieces : List (List α)}

/-! ### Joining -/

theorem joinWith_cons_of_ne_nil (mark : α) (piece : List α) (more : pieces ≠ []) :
    joinWith mark (piece :: pieces) = piece ++ mark :: joinWith mark pieces := by
  cases pieces with
  | nil => exact absurd rfl more
  | cons next others => rfl

/-- Pieces that are not empty are joined to nothing only if there are none. -/
theorem joinWith_eq_nil_iff (filled : ∀ piece ∈ pieces, piece ≠ []) :
    joinWith mark pieces = [] ↔ pieces = [] := by
  cases pieces with
  | nil => simp [joinWith]
  | cons piece rest =>
    have here : piece ≠ [] := filled piece List.mem_cons_self
    cases rest <;> simp [joinWith, here]

theorem mem_joinWith (among : piece ∈ pieces) {a : α} (inside : a ∈ piece) :
    a ∈ joinWith mark pieces := by
  induction pieces with
  | nil => exact absurd among List.not_mem_nil
  | cons first rest ih =>
    by_cases more : rest = []
    · subst more
      exact List.mem_singleton.1 among ▸ inside
    · rw [joinWith_cons_of_ne_nil mark first more]
      rcases List.mem_cons.1 among with rfl | later
      · exact List.mem_append_left _ inside
      · exact List.mem_append_right _ (List.mem_cons_of_mem _ (ih later))

/-! ### Cutting -/

variable [DecidableEq α]

theorem splitOn_of_not_mem (free : mark ∉ piece) : splitOn mark piece = [piece] := by
  induction piece with
  | nil => rfl
  | cons a rest ih =>
    rw [List.mem_cons, not_or] at free
    simp [splitOn, Ne.symm free.1, ih free.2]

/-- What stands before a mark and what stands behind it are cut each for itself. -/
theorem splitOn_append (mark : α) (first second : List α) :
    splitOn mark (first ++ mark :: second) = splitOn mark first ++ splitOn mark second := by
  induction first with
  | nil => simp [splitOn]
  | cons a rest ih =>
    by_cases ends : a = mark
    · simp [splitOn, ends, ih]
    · simp only [List.cons_append, splitOn, if_neg ends, ih]
      cases pieces : splitOn mark rest with
      | nil => exact absurd pieces (splitOn_ne_nil mark rest)
      | cons piece others => rfl

theorem splitOn_append_mark (free : mark ∉ piece) (rest : List α) :
    splitOn mark (piece ++ mark :: rest) = piece :: splitOn mark rest := by
  rw [splitOn_append, splitOn_of_not_mem free, List.singleton_append]

/-- Pieces that each follow a mark are the pieces between the marks. -/
theorem splitOn_flatMap_mark (mark : α) (pieces : List (List α))
    (free : ∀ piece ∈ pieces, mark ∉ piece) :
    splitOn mark (pieces.flatMap fun piece => mark :: piece) = [] :: pieces := by
  induction pieces with
  | nil => rfl
  | cons piece rest ih =>
    obtain ⟨here, later⟩ := List.forall_mem_cons.1 free
    cases rest with
    | nil => simp [splitOn, splitOn_of_not_mem here]
    | cons next others =>
      have tail := ih later
      simp only [List.flatMap_cons, List.cons_append, splitOn, if_true, List.cons.injEq,
        true_and] at tail ⊢
      rw [splitOn_append_mark here, tail]

/-- No piece between marks holds a mark. -/
theorem not_mem_of_mem_splitOn {list : List α} : ∀ piece ∈ splitOn mark list, mark ∉ piece := by
  induction list with
  | nil => simp [splitOn]
  | cons a rest ih =>
    intro piece member
    rw [splitOn] at member
    split at member
    · rcases List.mem_cons.1 member with rfl | later
      · exact List.not_mem_nil
      · exact ih piece later
    · next different =>
      cases pieces : splitOn mark rest with
      | nil => exact absurd pieces (splitOn_ne_nil mark rest)
      | cons first others =>
        rw [pieces] at member ih
        obtain ⟨here, later⟩ := List.forall_mem_cons.1 ih
        rcases List.mem_cons.1 member with rfl | behind
        · simpa [Ne.symm different] using here
        · exact later piece behind

theorem mem_of_mem_splitOn {list : List α} (among : piece ∈ splitOn mark list) {a : α}
    (inside : a ∈ piece) : a ∈ list := by
  rw [← joinWith_splitOn mark list]
  exact mem_joinWith among inside

/-- **Pieces without a mark** are the pieces of what they are joined to. -/
theorem splitOn_joinWith (nonempty : pieces ≠ []) (free : ∀ piece ∈ pieces, mark ∉ piece) :
    splitOn mark (joinWith mark pieces) = pieces := by
  induction pieces with
  | nil => exact absurd rfl nonempty
  | cons piece rest ih =>
    obtain ⟨here, later⟩ := List.forall_mem_cons.1 free
    cases rest with
    | nil => exact splitOn_of_not_mem here
    | cons next others =>
      rw [joinWith_cons_of_ne_nil mark piece (List.cons_ne_nil next others),
        splitOn_append_mark here, ih (List.cons_ne_nil next others) later]

/-! ### Cutting and UTF-8 -/

variable {c : Char} {text : List Char}

theorem encode_joinWith (ascii : c.toNat < 0x80) (pieces : List (List Char)) :
    encode (joinWith c pieces) = joinWith (UInt8.ofNat c.toNat) (pieces.map encode) := by
  induction pieces with
  | nil => rfl
  | cons piece rest ih =>
    cases rest with
    | nil => rfl
    | cons next others =>
      have more : next :: others ≠ [] := List.cons_ne_nil next others
      rw [joinWith_cons_of_ne_nil c piece more, List.map_cons,
        joinWith_cons_of_ne_nil _ _ (mt List.map_eq_nil_iff.1 more), encode_append, encode_cons, ih,
        utf8EncodeChar_ascii ascii, List.singleton_append]

/-- The pieces between ASCII characters are those between the bytes of these characters. -/
theorem splitOn_encode (ascii : c.toNat < 0x80) (text : List Char) :
    splitOn (UInt8.ofNat c.toNat) (encode text) = (splitOn c text).map encode := by
  have free : ∀ piece ∈ (splitOn c text).map encode, UInt8.ofNat c.toNat ∉ piece := by
    rintro _ member
    obtain ⟨piece, among, rfl⟩ := List.mem_map.1 member
    rw [mem_encode_iff ascii]
    exact not_mem_of_mem_splitOn piece among
  have nonempty : (splitOn c text).map encode ≠ [] := by simp [splitOn_ne_nil]
  calc splitOn (UInt8.ofNat c.toNat) (encode text)
    _ = splitOn (UInt8.ofNat c.toNat) (encode (joinWith c (splitOn c text))) := by
      rw [joinWith_splitOn]
    _ = (splitOn c text).map encode := by
      rw [encode_joinWith ascii, splitOn_joinWith nonempty free]

end RenderLink.Text
