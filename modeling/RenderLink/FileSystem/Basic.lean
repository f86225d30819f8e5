/-
**A file system.**

Directories, files and symbolic links by their location, the list of names from the root. A path is
walked name by name; a link on the way stands for its target, and the number of links followed is
limited, which is the measure of the walk.

* `find?_root`: the root is a directory.
* `find?_put`: an entry that is put stands at its location.
-/

import RenderLink.FileSystem.Error
import RenderLink.Path.Basic

namespace RenderLink

open Text

abbrev Name := List UInt8

/-- The names from the root down to a file or directory. -/
abbrev Location := List Name

inductive Entry where
  | directory
  | file (content : List UInt8)
  | link (target : Path)
  deriving DecidableEq, Repr

/-- The entries of a file system, later ones before earlier ones of the same location, and the
directory from which relative paths start. -/
structure FileSystem where
  entries : List (Location × Entry) := []
  workingDirectory : Location := []
  deriving DecidableEq, Repr

namespace FileSystem

def find? (files : FileSystem) : Location → Option Entry
  | [] => some .directory
  | location => files.entries.lookup location

@[simp] theorem find?_root (files : FileSystem) : files.find? [] = some .directory := rfl

/-- The file system with an entry at a location. -/
def put (files : FileSystem) (location : Location) (entry : Entry) : FileSystem :=
  { files with entries := (location, entry) :: files.entries }

/-- An entry that is put stands at its location. -/
theorem find?_put (files : FileSystem) {location : Location} (entry : Entry)
    (below : location ≠ []) : (files.put location entry).find? location = some entry := by
  cases location with
  | nil => exact absurd rfl below
  | cons name rest => simp [find?, put]

/-! ### Walking a path -/

/-- The greatest number of links on the way of a path. -/
def linkLimit : Nat := 40

/-- The greatest number of bytes in a name. -/
def nameLimit : Nat := 255

/-- The number of bytes that a path must stay below to be opened. -/
def pathLimit : Nat := 4096

/-- Where a path starts. -/
def origin (path : Path) (here : Location) : Location := if path.isAbsolute then [] else here

/-- The location that segments lead to, with a number of links left to follow. An empty segment and
a dot stay at a directory, and two dots leave it. -/
def walk (files : FileSystem) (links : Nat) (here : Location) (segments : List Name) :
    Except FileError Location :=
  match segments with
  | [] => .ok here
  | segment :: rest =>
    if files.find? here ≠ some .directory then .error .notDirectory
    else if segment = [] ∨ segment = [Path.dot] then files.walk links here rest
    else if segment = [Path.dot, Path.dot] then files.walk links here.dropLast rest
    else if nameLimit < segment.length then .error .nameTooLong
    else
      match files.find? (here ++ [segment]) with
      | none => .error .notFound
      | some (.link target) =>
        match links with
        | 0 => .error .linkLoop
        | left + 1 => files.walk left (origin target here) (target.segments ++ rest)
      | some _ => files.walk links (here ++ [segment]) rest
termination_by (links, segments.length)

/-- The location that a path leads to. -/
def resolve (files : FileSystem) (path : Path) : Except FileError Location :=
  if path.bytes = [] then .error .notFound
  else if path.bytes.contains 0 then .error .nullInPath
  else files.walk linkLimit (origin path files.workingDirectory) path.segments

/-- The absolute path of a location. -/
def pathOf (location : Location) : Path :=
  match location with
  | [] => ⟨[Path.slash]⟩
  | names => ⟨names.flatMap fun name => Path.slash :: name⟩

/-- The absolute path without links that a path leads to. -/
def canonicalize (files : FileSystem) (path : Path) : Except FileError Path :=
  (files.resolve path).map pathOf

/-! ### Reading -/

def readText (files : FileSystem) (path : Path) : Except FileError String :=
  if pathLimit ≤ path.bytes.length then .error .nameTooLong
  else do
    let location ← files.resolve path
    match files.find? location with
    | some (.file content) =>
      match decode? content with
      | some text => .ok (String.ofList text)
      | none => .error .notUtf8
    | some .directory => .error .isDirectory
    | _ => .error .notFound

/-! ### Writing -/

/-- The location at which segments let a file be written: that of a file, or a free one in a
directory. A link as the last segment stands for its target. -/
def walkToFile (files : FileSystem) (links : Nat) (here : Location) (segments : List Name) :
    Except FileError Location :=
  match segments with
  | [] => .error .isDirectory
  | segment :: rest =>
    if files.find? here ≠ some .directory then .error .notDirectory
    else if segment = [] ∨ segment = [Path.dot] then files.walkToFile links here rest
    else if segment = [Path.dot, Path.dot] then files.walkToFile links here.dropLast rest
    else if rest ≠ [] ∧ rest.all (fun later => later.isEmpty) then .error .isDirectory
    else if nameLimit < segment.length then .error .nameTooLong
    else
      match files.find? (here ++ [segment]) with
      | none => if rest = [] then .ok (here ++ [segment]) else .error .notFound
      | some (.link target) =>
        match links with
        | 0 => .error .linkLoop
        | left + 1 => files.walkToFile left (origin target here) (target.segments ++ rest)
      | some (.file _) => if rest = [] then .ok (here ++ [segment]) else .error .notDirectory
      | some .directory => files.walkToFile links (here ++ [segment]) rest
termination_by (links, segments.length)

/-- The location at which a path lets a file be written. -/
def resolveToFile (files : FileSystem) (path : Path) : Except FileError Location :=
  if path.bytes = [] then .error .notFound
  else if path.bytes.contains 0 then .error .nullInPath
  else if pathLimit ≤ path.bytes.length then .error .nameTooLong
  else files.walkToFile linkLimit (origin path files.workingDirectory) path.segments

/-- Writes a text to a file, which is made if it does not exist. -/
def writeText (files : FileSystem) (path : Path) (text : String) :
    Except FileError FileSystem := do
  let location ← files.resolveToFile path
  return files.put location (.file (encode text.toList))

end FileSystem

end RenderLink
