/-
**File systems that differ in their files only.**

Where a path leads depends on directories and links. Two file systems with the same directories and
links therefore agree on every path that leads to a directory or lets a file be written, and on
every other path as long as the file that it leads to exists in both.

* `SameTree.walk`, `SameTree.walkToFile`: the walks, by induction along them.
* `SameTree.resolve`, `SameTree.resolveToFile`: the paths.
* `sameTree_put`: a file that is put where neither a directory nor a link stands changes no tree.
* `Names`: a path names the location at which it leads to a file, or would if one stood there.
-/

import RenderLink.FileSystem.Disk
import Mathlib.Logic.Basic
import Mathlib.Tactic.SplitIfs

namespace RenderLink

namespace FileSystem

variable {files first second third : FileSystem} {links : Nat} {here location : Location}
  {segments : List Name} {path : Path}

/-! ### The tree -/

/-- Both file systems have the same directories and links. -/
structure SameTree (first second : FileSystem) : Prop where
  workingDirectory : first.workingDirectory = second.workingDirectory
  directory : ∀ location,
    first.find? location = some .directory ↔ second.find? location = some .directory
  link : ∀ location target,
    first.find? location = some (.link target) ↔ second.find? location = some (.link target)

namespace SameTree

theorem refl (files : FileSystem) : files.SameTree files :=
  ⟨rfl, fun _ => .rfl, fun _ _ => .rfl⟩

theorem symm (same : first.SameTree second) : second.SameTree first :=
  ⟨same.workingDirectory.symm, fun location => (same.directory location).symm,
    fun location target => (same.link location target).symm⟩

theorem trans (same : first.SameTree second) (next : second.SameTree third) :
    first.SameTree third :=
  ⟨same.workingDirectory.trans next.workingDirectory,
    fun location => (same.directory location).trans (next.directory location),
    fun location target => (same.link location target).trans (next.link location target)⟩

end SameTree

/-- Neither a directory nor a link stands at a location. -/
def IsFree (files : FileSystem) (location : Location) : Prop :=
  files.find? location ≠ some .directory ∧ ∀ target, files.find? location ≠ some (.link target)

theorem IsFree.ne_root (free : files.IsFree location) : location ≠ [] := by
  rintro rfl
  exact free.1 files.find?_root

theorem IsFree.of_sameTree (free : first.IsFree location) (same : first.SameTree second) :
    second.IsFree location :=
  ⟨fun directory => free.1 ((same.directory location).2 directory),
    fun target link => free.2 target ((same.link location target).2 link)⟩

theorem isFree_of_file {content : List UInt8}
    (file : files.find? location = some (.file content)) : files.IsFree location := by
  simp [IsFree, file]

/-- An entry that is put changes no other location. -/
theorem find?_put_of_ne (files : FileSystem) (entry : Entry) {other : Location}
    (apart : other ≠ location) : (files.put location entry).find? other = files.find? other := by
  cases other with
  | nil => rfl
  | cons name rest =>
    have unequal : (name :: rest == location) = false := beq_eq_false_iff_ne.2 apart
    simp [find?, put, List.lookup_cons, unequal]

/-- A file at a free location leaves the tree as it is. -/
theorem sameTree_put (free : files.IsFree location) (content : List UInt8) :
    files.SameTree (files.put location (.file content)) := by
  have there := files.find?_put (.file content) free.ne_root
  refine ⟨rfl, fun other => ?_, fun other target => ?_⟩
  · by_cases same : other = location
    · simp [same, there, free.1]
    · rw [files.find?_put_of_ne _ same]
  · by_cases same : other = location
    · simp [same, there, free.2]
    · rw [files.find?_put_of_ne _ same]

/-! ### The walks -/

/-- A walk goes nowhere from a file. -/
theorem walk_file {content : List UInt8} (file : files.find? here = some (.file content))
    (walked : files.walk links here segments = .ok location) : location = here := by
  cases segments with
  | nil => simpa [walk, eq_comm] using walked
  | cons segment rest => simp [walk, file] at walked

/-- A walk leads to the same location in a file system with the same tree, as long as the file that
it leads to exists there too. -/
theorem SameTree.walk (same : first.SameTree second)
    (walked : first.walk links here segments = .ok location)
    (stands : ∀ content, first.find? location = some (.file content) →
      second.find? location ≠ none) :
    second.walk links here segments = .ok location := by
  fun_induction first.walk links here segments with
  | case1 links here => simpa [FileSystem.walk] using walked
  | case2 => cases walked
  | case3 links here segment rest directory stays ih =>
    rw [not_not, same.directory] at directory
    simpa [FileSystem.walk, directory, stays] using ih walked
  | case4 links here rest directory moves ih =>
    rw [not_not, same.directory] at directory
    simpa [FileSystem.walk, directory] using ih walked
  | case5 => cases walked
  | case6 => cases walked
  | case7 => cases walked
  | case8 here segment rest directory moves down short target found left ih =>
    rw [not_not, same.directory] at directory
    rw [same.link] at found
    simpa [FileSystem.walk, directory, moves, down, short, found] using ih walked
  | case9 links here segment rest directory moves down short entry plain found ih =>
    rw [not_not, same.directory] at directory
    cases entry with
    | link target => exact absurd rfl (plain target)
    | directory =>
      rw [same.directory] at found
      simpa [FileSystem.walk, directory, moves, down, short, found] using ih walked
    | file content =>
      -- The walk ends at the file, which the other file system has as well.
      obtain rfl := walk_file found walked
      obtain ⟨entry, other⟩ := Option.ne_none_iff_exists'.1 (stands content found)
      have plain : ∀ target, entry ≠ .link target := by
        rintro target rfl
        exact ((isFree_of_file found).of_sameTree same).2 target other
      simpa [FileSystem.walk, directory, moves, down, short, other] using ih walked

/-- A file can be written only where neither a directory nor a link stands. -/
theorem isFree_of_walkToFile (walked : files.walkToFile links here segments = .ok location) :
    files.IsFree location := by
  fun_induction files.walkToFile links here segments with
  | case3 links here segment rest directory stays ih => exact ih walked
  | case4 links here rest directory moves ih => exact ih walked
  | case7 links here segment directory moves down short absent =>
    cases walked
    simp [IsFree, absent]
  | case10 here segment rest directory moves down slash short target found left ih =>
    exact ih walked
  | case11 links here segment directory moves down short content found =>
    cases walked
    exact isFree_of_file found
  | case13 links here segment rest directory moves down slash short found ih => exact ih walked
  | _ => cases walked

/-- The last name of a walk lets a file be written at a free location. -/
theorem walkToFile_of_isFree {segment : Name} (directory : files.find? here = some .directory)
    (moves : ¬(segment = [] ∨ segment = [Path.dot])) (down : segment ≠ [Path.dot, Path.dot])
    (short : ¬nameLimit < segment.length) (free : files.IsFree (here ++ [segment])) :
    files.walkToFile links here [segment] = .ok (here ++ [segment]) := by
  rw [walkToFile]
  cases found : files.find? (here ++ [segment]) with
  | none => simp [directory, moves, down, short]
  | some entry =>
    cases entry with
    | directory => exact absurd found free.1
    | link target => exact absurd found (free.2 target)
    | file content => simp [directory, moves, down, short]

/-- A walk lets a file be written at the same location in a file system with the same tree. -/
theorem SameTree.walkToFile (same : first.SameTree second)
    (walked : first.walkToFile links here segments = .ok location) :
    second.walkToFile links here segments = .ok location := by
  have free := (isFree_of_walkToFile walked).of_sameTree same
  fun_induction first.walkToFile links here segments with
  | case3 links here segment rest directory stays ih =>
    rw [not_not, same.directory] at directory
    rw [FileSystem.walkToFile]
    simpa [directory, stays] using ih walked
  | case4 links here rest directory moves ih =>
    rw [not_not, same.directory] at directory
    rw [FileSystem.walkToFile]
    simpa [directory] using ih walked
  | case7 links here segment directory moves down short absent =>
    rw [not_not, same.directory] at directory
    cases walked
    exact walkToFile_of_isFree directory moves down short free
  | case10 here segment rest directory moves down slash short target found left ih =>
    rw [not_not, same.directory] at directory
    rw [same.link] at found
    rw [FileSystem.walkToFile, if_neg (not_not.2 directory), if_neg moves, if_neg down,
      if_neg slash, if_neg short, found]
    exact ih walked
  | case11 links here segment directory moves down short content found =>
    rw [not_not, same.directory] at directory
    cases walked
    exact walkToFile_of_isFree directory moves down short free
  | case13 links here segment rest directory moves down slash short found ih =>
    rw [not_not, same.directory] at directory
    rw [same.directory] at found
    rw [FileSystem.walkToFile, if_neg (not_not.2 directory), if_neg moves, if_neg down,
      if_neg slash, if_neg short, found]
    exact ih walked
  | _ => cases walked

/-! ### The paths -/

/-- A path leads to the same location in a file system with the same tree, as long as the file that
it leads to exists there too. -/
theorem SameTree.resolve (same : first.SameTree second)
    (resolved : first.resolve path = .ok location)
    (stands : ∀ content, first.find? location = some (.file content) →
      second.find? location ≠ none) :
    second.resolve path = .ok location := by
  unfold FileSystem.resolve at resolved ⊢
  rw [← same.workingDirectory]
  split_ifs at resolved ⊢ with blank null
  exact same.walk resolved stands

/-- A path lets a file be written at the same location in a file system with the same tree. -/
theorem SameTree.resolveToFile (same : first.SameTree second)
    (resolved : first.resolveToFile path = .ok location) :
    second.resolveToFile path = .ok location := by
  unfold FileSystem.resolveToFile at resolved ⊢
  rw [← same.workingDirectory]
  split_ifs at resolved ⊢ with blank null long
  exact same.walkToFile resolved

theorem isFree_of_resolveToFile (resolved : files.resolveToFile path = .ok location) :
    files.IsFree location := by
  unfold FileSystem.resolveToFile at resolved
  split_ifs at resolved with blank null long
  exact isFree_of_walkToFile resolved

/-- A path names a location if it leads there once a file stands there. -/
def Names (files : FileSystem) (path : Path) (location : Location) : Prop :=
  (files.put location (.file [])).resolve path = .ok location

/-- A path names the location to which it leads in any file system with the same tree. -/
theorem SameTree.names (same : first.SameTree second) (free : second.IsFree location)
    (resolved : first.resolve path = .ok location) : second.Names path location := by
  refine (same.trans (sameTree_put free [])).resolve resolved fun _ _ => ?_
  simp [second.find?_put _ free.ne_root]

end FileSystem

end RenderLink
