/-
**Literals and the identifiers bound to them.**

A table lists its bindings in the order of their first use, with an index from literals to places
and the set of names that are taken. A literal that is new gets its plain identifier if that is
free, and otherwise the first free one with a number from two up.

* `resolve_of_find?`: a literal in the index keeps the table as it is.
-/

import RenderLink.Hoist.Identifier
import Std.Data.HashMap
import Std.Data.HashSet

namespace RenderLink

/-- A literal, with its quotation marks, and the identifier bound to it. -/
structure Binding where
  literal : String
  identifier : String
  deriving DecidableEq, Repr

/-- The static import declaration of a binding. -/
def Binding.importDeclaration (binding : Binding) : String :=
  "import " ++ binding.identifier ++ " from " ++ binding.literal

/-- The bindings of one source. -/
structure BindingTable where
  /-- The bindings in the order of their first use. -/
  entries : Array Binding := #[]
  /-- The place of each literal among the entries. -/
  byLiteral : Std.HashMap String Nat := ∅
  /-- The identifiers of the entries. -/
  taken : Std.HashSet String := ∅

namespace BindingTable

def empty : BindingTable := {}

/-- The first free name of a sequence from a number on. The number of tries bounds the search; as
many tries as there are names that are taken always suffice. -/
def firstFree (taken : Std.HashSet String) (name : Nat → String) (n : Nat) : Nat → String
  | 0 => name n
  | tries + 1 => if taken.contains (name n) then firstFree taken name (n + 1) tries else name n

/-- The identifier for a new literal. -/
def freshIdentifier (table : BindingTable) (callee literal : String) : String :=
  let plain := String.ofList (Identifier.synthesize callee.toList literal.toList)
  let numbered (n : Nat) := String.ofList (Identifier.synthesizeNth callee.toList literal.toList n)
  if table.taken.contains plain then firstFree table.taken numbered 2 table.taken.size
  else plain

/-- Adds a new literal. -/
def insert (table : BindingTable) (callee literal : String) : String × BindingTable :=
  let identifier := table.freshIdentifier callee literal
  (identifier,
    { entries := table.entries.push { literal, identifier }
      byLiteral := table.byLiteral.insert literal table.entries.size
      taken := table.taken.insert identifier })

/-- The binding of a literal, if it has one. -/
def find? (table : BindingTable) (literal : String) : Option Binding :=
  table.byLiteral[literal]?.bind fun place => table.entries[place]?

/-- The identifier of a literal, which is added if it is new. -/
def resolve (table : BindingTable) (callee literal : String) : String × BindingTable :=
  match table.find? literal with
  | some binding => (binding.identifier, table)
  | none => table.insert callee literal

/-- A literal in the index keeps the table as it is. -/
theorem resolve_of_find? {table : BindingTable} {literal : String} {binding : Binding}
    (callee : String) (found : table.find? literal = some binding) :
    table.resolve callee literal = (binding.identifier, table) := by
  simp [resolve, found]

end BindingTable

end RenderLink
