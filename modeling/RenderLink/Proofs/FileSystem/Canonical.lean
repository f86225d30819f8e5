/-
**Canonical paths.**

In a well-formed file system every entry has a name that a path can spell and stands in a directory.
The canonical path of a location is then walked from the root through directories only, without a
link, and ends at the location.

* `stands_of_resolve`: a path leads to a directory or a file.
* `resolve_pathOf`: **a canonical path leads to its location.**
-/

import RenderLink.Proofs.FileSystem.SameTree
import RenderLink.Proofs.Text.Lines
import Mathlib.Data.List.Induction

namespace RenderLink

open Text

namespace FileSystem

/-! ### Well-formed file systems -/

/-- A name that a path can spell between its slashes. -/
structure IsName (name : Name) : Prop where
  plain : ¬(name = [] ∨ name = [Path.dot])
  down : name ≠ [Path.dot, Path.dot]
  short : name.length ≤ nameLimit
  slash : Path.slash ∉ name
  null : 0 ∉ name

/-- Every entry has a name and stands in a directory. -/
structure WellFormed (files : FileSystem) : Prop where
  directory : ∀ location name, files.find? (location ++ [name]) ≠ none →
    files.find? location = some .directory
  name : ∀ location name, files.find? (location ++ [name]) ≠ none → IsName name

/-- A directory or a file stands at a location. -/
def Stands (files : FileSystem) (location : Location) : Prop :=
  files.find? location ≠ none ∧ ∀ target, files.find? location ≠ some (.link target)

variable {files : FileSystem} {links : Nat} {here location : Location} {segments names : List Name}
  {path : Path}

theorem stands_of_directory (directory : files.find? location = some .directory) :
    files.Stands location := by
  simp [Stands, directory]

/-- What stands below a location makes it a directory. -/
theorem WellFormed.directory_above (wellFormed : files.WellFormed)
    (below : files.find? (here ++ names) ≠ none) (proper : names ≠ []) :
    files.find? here = some .directory := by
  induction names using List.reverseRecOn with
  | nil => exact absurd rfl proper
  | append_singleton front last ih =>
    rw [← List.append_assoc] at below
    have above := wellFormed.directory _ last below
    cases front with
    | nil => simpa using above
    | cons name rest => exact ih (by simp [above]) (by simp)

/-- The names of what stands below a location are names. -/
theorem WellFormed.isName (wellFormed : files.WellFormed)
    (below : files.find? (here ++ names) ≠ none) : ∀ name ∈ names, IsName name := by
  intro name member
  obtain ⟨front, rest, rfl⟩ := List.append_of_mem member
  apply wellFormed.name (here ++ front) name
  cases rest with
  | nil => simpa using below
  | cons next others =>
    have above : files.find? (here ++ front ++ [name]) = some .directory :=
      wellFormed.directory_above (by simpa using below) (List.cons_ne_nil next others)
    exact above ▸ Option.some_ne_none _

/-- The names of a location at which something stands are names. -/
theorem WellFormed.isName_of_stands (wellFormed : files.WellFormed)
    (stands : files.Stands location) : ∀ name ∈ location, IsName name :=
  wellFormed.isName (List.nil_append location ▸ stands.1)

/-- What stands in a file system is one of its entries. -/
theorem mem_entries_of_find? {files : FileSystem} {location : Location} {name : Name}
    (present : files.find? (location ++ [name]) ≠ none) :
    ∃ entry, (location ++ [name], entry) ∈ files.entries := by
  obtain ⟨entry, found⟩ := Option.ne_none_iff_exists'.1 present
  have looked : files.entries.lookup (location ++ [name]) = some entry := by
    rw [← found]
    cases location <;> rfl
  obtain ⟨front, rest, split, -⟩ := List.lookup_eq_some_iff.1 looked
  exact ⟨entry, by simp [split]⟩

/-! ### Where paths lead -/

/-- A walk leads to a directory or a file. -/
theorem stands_of_walk (wellFormed : files.WellFormed)
    (walked : files.walk links here segments = .ok location)
    (start : segments ≠ [] ∨ files.Stands here) : files.Stands location := by
  fun_induction files.walk links here segments with
  | case1 links here =>
    cases walked
    exact start.resolve_left (not_not.2 rfl)
  | case3 links here segment rest directory stays ih =>
    exact ih walked (.inr (stands_of_directory (not_not.1 directory)))
  | case4 links here rest directory moves ih =>
    refine ih walked (.inr (stands_of_directory ?_))
    cases here using List.reverseRecOn with
    | nil => rfl
    | append_singleton above name =>
      rw [List.dropLast_concat]
      exact wellFormed.directory above name (by rw [not_not.1 directory]; simp)
  | case8 here segment rest directory moves down short target found left ih =>
    exact ih walked (.inl (by simp [Path.segments, splitOn_ne_nil]))
  | case9 links here segment rest directory moves down short entry plain found ih =>
    refine ih walked (.inr ⟨by simp [found], fun target link => ?_⟩)
    rw [found] at link
    exact plain target (Option.some.inj link)
  | _ => cases walked

/-- A path leads to a directory or a file. -/
theorem stands_of_resolve (wellFormed : files.WellFormed)
    (resolved : files.resolve path = .ok location) : files.Stands location := by
  unfold resolve at resolved
  split_ifs at resolved with blank null
  exact stands_of_walk wellFormed resolved (.inl (splitOn_ne_nil _ _))

/-- The names below a location lead to what stands there. -/
theorem walk_names (wellFormed : files.WellFormed) (stands : files.Stands (here ++ names)) :
    files.walk links here names = .ok (here ++ names) := by
  induction names generalizing here with
  | nil => simp [walk]
  | cons name rest ih =>
    have directory := wellFormed.directory_above stands.1 (by simp)
    have isName := wellFormed.isName stands.1 name (by simp)
    have next : files.Stands (here ++ [name]) := by
      cases rest with
      | nil => exact stands
      | cons _ _ =>
        exact stands_of_directory
          (wellFormed.directory_above (by simpa using stands.1) (List.cons_ne_nil _ _))
    obtain ⟨entry, found⟩ := Option.ne_none_iff_exists'.1 next.1
    have plain : ∀ target, entry ≠ .link target := fun target link =>
      next.2 target (link ▸ found)
    have later : files.walk links (here ++ [name]) rest = .ok (here ++ [name] ++ rest) :=
      ih (by simpa using stands)
    rw [walk, if_neg (not_not.2 directory), if_neg isName.plain, if_neg isName.down,
      if_neg (Nat.not_lt.2 isName.short), found]
    simpa using later

/-- The segments of a canonical path are an empty one and the names of its location. -/
theorem segments_pathOf (below : location ≠ []) (isName : ∀ name ∈ location, IsName name) :
    (pathOf location).segments = [] :: location := by
  cases location with
  | nil => exact absurd rfl below
  | cons name rest => exact splitOn_flatMap_mark _ _ fun other member => (isName other member).slash

/-- **A canonical path leads to its location.** -/
theorem resolve_pathOf (wellFormed : files.WellFormed) (stands : files.Stands location) :
    files.resolve (pathOf location) = .ok location := by
  cases location with
  | nil => simp [resolve, pathOf, origin, Path.isAbsolute, Path.segments, Path.slash, splitOn, walk]
  | cons name rest =>
    have isName : ∀ other ∈ name :: rest, IsName other :=
      wellFormed.isName_of_stands stands
    have null : 0 ∉ (pathOf (name :: rest)).bytes := by
      intro member
      obtain ⟨other, among, inside⟩ := List.mem_flatMap.1 member
      exact (List.mem_cons.1 inside).elim (by decide) (isName other among).null
    have segments : (pathOf (name :: rest)).segments = [] :: name :: rest :=
      segments_pathOf (List.cons_ne_nil _ _) isName
    have walked : files.walk linkLimit [] ([] :: name :: rest) = .ok (name :: rest) := by
      rw [walk, if_neg (not_not.2 files.find?_root), if_pos (.inl rfl)]
      exact walk_names wellFormed stands
    have absolute : origin (pathOf (name :: rest)) files.workingDirectory = [] := rfl
    have bytes : (pathOf (name :: rest)).bytes ≠ [] := List.cons_ne_nil _ _
    rw [resolve, if_neg bytes, if_neg (by simpa using null), segments, absolute, walked]

/-- The location to which a canonical path leads is that of the path that it is of. -/
theorem resolve_of_canonicalize (wellFormed : files.WellFormed) {canonical : Path}
    (found : files.canonicalize path = .ok canonical) :
    ∃ location, files.resolve path = .ok location ∧ canonical = pathOf location ∧
      files.resolve canonical = .ok location := by
  unfold canonicalize at found
  cases resolved : files.resolve path with
  | error cause => simp [resolved, Except.map] at found
  | ok location =>
    obtain rfl : pathOf location = canonical := by simpa [resolved, Except.map] using found
    exact ⟨location, rfl, rfl,
      resolve_pathOf wellFormed (stands_of_resolve wellFormed resolved)⟩

/-- A free name in the root lets a file be written. -/
theorem resolveToFile_in_root {files : FileSystem} {name : Name} (isName : IsName name)
    (free : files.IsFree [name]) : files.resolveToFile (pathOf [name]) = .ok [name] := by
  have bytes : (pathOf [name]).bytes = Path.slash :: name := by simp [pathOf]
  have segments : (pathOf [name]).segments = [[], name] :=
    segments_pathOf (List.cons_ne_nil _ _) (by simpa using isName)
  have absolute : origin (pathOf [name]) files.workingDirectory = [] := rfl
  have null : 0 ∉ (pathOf [name]).bytes := by
    rw [bytes, List.mem_cons, not_or]
    exact ⟨by decide, isName.null⟩
  have short : ¬pathLimit ≤ (pathOf [name]).bytes.length := by
    have := isName.short
    simp only [bytes, List.length_cons, pathLimit, nameLimit] at this ⊢
    omega
  rw [resolveToFile, if_neg (by simp [bytes]), if_neg (by simpa using null), if_neg short, segments,
    absolute, walkToFile, if_neg (not_not.2 files.find?_root), if_pos (.inl rfl)]
  exact walkToFile_of_isFree rfl isName.plain isName.down (Nat.not_lt.2 isName.short) free

end FileSystem

end RenderLink
