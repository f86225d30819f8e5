/-
**Paths.**

A path is a list of bytes, which need not be UTF-8; it is shown by reading them lossily. Its
components are the names between slashes: repeated slashes and dots count for nothing, except for
one dot at the beginning of a relative path.
-/

import RenderLink.Text.Lines
import RenderLink.Text.Utf8

namespace RenderLink

open Text

structure Path where
  bytes : List UInt8
  deriving DecidableEq, Repr

namespace Path

instance : Inhabited Path := ⟨⟨[]⟩⟩

def slash : UInt8 := 0x2F

def dot : UInt8 := 0x2E

/-- The path that a text names. -/
def ofString (text : String) : Path := ⟨encode text.toList⟩

/-- The text of a path, with U+FFFD for what is not UTF-8. -/
def display (path : Path) : String := String.ofList (decodeLossy path.bytes)

/-- Whether a path starts from the root. -/
def isAbsolute (path : Path) : Bool := path.bytes.head? = some slash

/-- The bytes between slashes. -/
def segments (path : Path) : List (List UInt8) := splitOn slash path.bytes

/-- A component of a path. -/
inductive Component where
  | root
  | current
  | parent
  | name (bytes : List UInt8)
  deriving DecidableEq, Repr

/-- The component that the bytes between two slashes are, if they count. -/
def Component.ofSegment? (segment : List UInt8) : Option Component :=
  if segment = [] ∨ segment = [dot] then none
  else if segment = [dot, dot] then some .parent
  else some (.name segment)

def Component.bytes : Component → List UInt8
  | .root => [slash]
  | .current => [dot]
  | .parent => [dot, dot]
  | .name bytes => bytes

def Component.display (component : Component) : List Char := decodeLossy component.bytes

def components (path : Path) : List Component :=
  let named := path.segments.filterMap Component.ofSegment?
  if path.isAbsolute then .root :: named
  else if path.segments.head? = some [dot] then .current :: named
  else named

/-- The components of the directory that a path is in. The root and the empty path are in none. -/
def directory (path : Path) : List Component :=
  match path.components.getLast? with
  | some .root => []
  | _ => path.components.dropLast

/-- A path with text at its end. -/
def append (path : Path) (text : String) : Path := ⟨path.bytes ++ encode text.toList⟩

end Path

end RenderLink
