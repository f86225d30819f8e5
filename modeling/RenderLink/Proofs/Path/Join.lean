/-
**A path behind another one.**

A relative path is put behind another path with a slash between them, unless that one ends in a
slash or is empty; an absolute path takes the other one's place. Segments behind a path are further
components of it.

* `bytes_of_ofSegment?`: a component has the bytes of its segment.
* `components_join`: **the components of segments behind a path.**
-/

import RenderLink.Path.Basic
import RenderLink.Proofs.Text.Lines

namespace RenderLink.Path

open Text

/-- A path put behind another one. -/
def join (path behind : Path) : Path :=
  if behind.isAbsolute then behind
  else if path.bytes = [] ∨ path.bytes.getLast? = some slash then ⟨path.bytes ++ behind.bytes⟩
  else ⟨path.bytes ++ slash :: behind.bytes⟩

/-- A segment of a way: it is neither empty nor a dot and holds no slash. -/
structure IsSegment (segment : List UInt8) : Prop where
  filled : segment ≠ []
  moves : segment ≠ [dot]
  free : slash ∉ segment

/-! ### Components of segments -/

variable {path : Path} {segment : List UInt8} {segments : List (List UInt8)} {component : Component}

theorem bytes_of_ofSegment? (counts : Component.ofSegment? segment = some component) :
    component.bytes = segment := by
  unfold Component.ofSegment? at counts
  split at counts
  · cases counts
  · split at counts
    · next up =>
      cases counts
      exact up.symm
    · cases counts
      rfl

/-- What a segment counts for is a step up or a name. -/
theorem moves_of_ofSegment? (counts : Component.ofSegment? segment = some component) :
    component ≠ .root ∧ component ≠ .current := by
  unfold Component.ofSegment? at counts
  split at counts
  · cases counts
  · split at counts
    · cases counts
      exact ⟨nofun, nofun⟩
    · cases counts
      exact ⟨nofun, nofun⟩

/-- A component other than the root and the dot in front is that of a segment. -/
theorem exists_segment (member : component ∈ path.components) (notRoot : component ≠ .root)
    (notCurrent : component ≠ .current) :
    ∃ segment ∈ path.segments, Component.ofSegment? segment = some component := by
  unfold components at member
  apply List.mem_filterMap.mp
  split at member
  · exact (List.mem_cons.mp member).resolve_left notRoot
  · split at member
    · exact (List.mem_cons.mp member).resolve_left notCurrent
    · exact member

theorem isSegment_of_mem_segments (member : segment ∈ path.segments)
    (counts : Component.ofSegment? segment = some component) : IsSegment segment := by
  unfold Component.ofSegment? at counts
  split at counts
  · cases counts
  · next plain =>
    rw [not_or] at plain
    exact ⟨plain.1, plain.2, not_mem_of_mem_splitOn segment member⟩

/-! ### Components behind a path -/

theorem not_isAbsolute_joinWith (plain : ∀ segment ∈ segments, IsSegment segment) :
    isAbsolute ⟨joinWith slash segments⟩ = false := by
  cases segments with
  | nil => rfl
  | cons first rest =>
    have isSegment := plain first List.mem_cons_self
    obtain ⟨byte, others, rfl⟩ := List.exists_cons_of_ne_nil isSegment.filled
    have other : byte ≠ slash := fun same => isSegment.free (same ▸ List.mem_cons_self)
    cases rest with
    | nil => simp [isAbsolute, joinWith, other]
    | cons next rest => simp [isAbsolute, joinWith, other]

/-- The segments of a way are found again between its slashes; an empty way has an empty one. -/
theorem filterMap_splitOn_joinWith (plain : ∀ segment ∈ segments, IsSegment segment) :
    (splitOn slash (joinWith slash segments)).filterMap Component.ofSegment? =
      segments.filterMap Component.ofSegment? := by
  by_cases none : segments = []
  · subst none
    rfl
  · rw [splitOn_joinWith none fun segment member => (plain segment member).free]

theorem components_joinWith (plain : ∀ segment ∈ segments, IsSegment segment) :
    components ⟨joinWith slash segments⟩ = segments.filterMap Component.ofSegment? := by
  have noDot : (splitOn slash (joinWith slash segments)).head? ≠ some [dot] := by
    cases segments with
    | nil => decide
    | cons first rest =>
      rw [splitOn_joinWith (List.cons_ne_nil first rest) fun segment member =>
        (plain segment member).free]
      intro same
      exact (plain first List.mem_cons_self).moves (Option.some.inj same)
  unfold components
  rw [not_isAbsolute_joinWith plain, if_neg Bool.false_ne_true]
  unfold Path.segments
  rw [if_neg noDot, filterMap_splitOn_joinWith plain]

/-- What follows a slash adds its components to those of what stands before it. -/
theorem components_slash (front rest : List UInt8) :
    components ⟨front ++ slash :: rest⟩ =
      components ⟨front ++ [slash]⟩ ++ (splitOn slash rest).filterMap Component.ofSegment? := by
  have sameStart : isAbsolute ⟨front ++ slash :: rest⟩ = isAbsolute ⟨front ++ [slash]⟩ := by
    cases front <;> rfl
  have sameHead : (splitOn slash (front ++ slash :: rest)).head? =
      (splitOn slash (front ++ [slash])).head? := by
    rw [splitOn_append, splitOn_append, List.head?_append_of_ne_nil _ (splitOn_ne_nil _ _),
      List.head?_append_of_ne_nil _ (splitOn_ne_nil _ _)]
  have named : (splitOn slash (front ++ slash :: rest)).filterMap Component.ofSegment? =
      (splitOn slash (front ++ [slash])).filterMap Component.ofSegment? ++
        (splitOn slash rest).filterMap Component.ofSegment? := by
    rw [splitOn_append, splitOn_append, List.filterMap_append, List.filterMap_append]
    simp [splitOn, Component.ofSegment?]
  unfold components Path.segments
  rw [sameStart, sameHead, named]
  split
  · rfl
  · split <;> rfl

/-- A slash at the end of a path counts for nothing. -/
theorem components_slash_end {bytes : List UInt8} (nonempty : bytes ≠ []) :
    components ⟨bytes ++ [slash]⟩ = components ⟨bytes⟩ := by
  have sameStart : isAbsolute ⟨bytes ++ [slash]⟩ = isAbsolute ⟨bytes⟩ := by
    unfold isAbsolute
    rw [List.head?_append_of_ne_nil _ nonempty]
  have sameHead : (splitOn slash (bytes ++ [slash])).head? = (splitOn slash bytes).head? := by
    rw [splitOn_append, List.head?_append_of_ne_nil _ (splitOn_ne_nil _ _)]
  have named : (splitOn slash (bytes ++ [slash])).filterMap Component.ofSegment? =
      (splitOn slash bytes).filterMap Component.ofSegment? := by
    rw [splitOn_append, List.filterMap_append]
    simp [splitOn, Component.ofSegment?]
  unfold components Path.segments
  rw [sameStart, sameHead, named]

/-- **The components of segments behind a path** stand behind those of the path. -/
theorem components_join (path : Path) (plain : ∀ segment ∈ segments, IsSegment segment) :
    (path.join ⟨joinWith slash segments⟩).components =
      path.components ++ segments.filterMap Component.ofSegment? := by
  obtain ⟨bytes⟩ := path
  unfold join
  rw [not_isAbsolute_joinWith plain, if_neg Bool.false_ne_true]
  by_cases empty : bytes = []
  · subst empty
    rw [if_pos (Or.inl rfl)]
    exact components_joinWith plain
  · by_cases closed : bytes.getLast? = some slash
    · obtain ⟨front, rfl⟩ := List.getLast?_eq_some_iff.mp closed
      rw [if_pos (Or.inr closed), List.append_assoc, List.singleton_append, components_slash,
        filterMap_splitOn_joinWith plain]
    · rw [if_neg (not_or.mpr ⟨empty, closed⟩), components_slash, components_slash_end empty,
        filterMap_splitOn_joinWith plain]

end RenderLink.Path
