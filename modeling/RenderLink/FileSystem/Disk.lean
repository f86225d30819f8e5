/-
**The file operations of the program.**

The program asks its disk for paths without links, for texts, and to write texts. A disk answers in
a monad of its own: the real one in `IO`, a file system in a state monad (`FileSystem.disk`).
-/

import RenderLink.FileSystem.Basic

namespace RenderLink

/-- The file operations of the program. -/
structure Disk (m : Type → Type) where
  workingDirectory : m (Except FileError Path)
  /-- The absolute path without links that a path leads to. -/
  canonicalize : Path → m (Except FileError Path)
  readText : Path → m (Except FileError String)
  writeText : Path → String → m (Except FileError Unit)

/-- A file system as a disk. -/
def FileSystem.disk : Disk (StateM FileSystem) where
  workingDirectory files := (.ok (pathOf files.workingDirectory), files)
  canonicalize path files := (files.canonicalize path, files)
  readText path files := (files.readText path, files)
  writeText path text files :=
    match files.writeText path text with
    | .ok after => (.ok (), after)
    | .error error => (.error error, files)

end RenderLink
