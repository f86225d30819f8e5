/-
**Hoisting dynamic references.**

Every call site of a source becomes the identifier bound to its literal, and one import declaration
for each literal, in the order of first use, stands in front. All other text is kept.
-/

import RenderLink.Hoist.BindingTable
import RenderLink.Hoist.Scanner
import RenderLink.Log

namespace RenderLink

/-- The result of hoisting the references of a source. -/
structure Hoisted where
  /-- Import declarations and, below them, the source with identifiers for its call sites. -/
  code : String
  /-- The bindings in the order of their first use. -/
  bindings : List Binding
  callSites : Nat
  deriving DecidableEq, Repr

namespace Hoisted

/-- The callee that is recognised unless another one is asked for. -/
def defaultCallee : String := "require"

/-- The text of call sites and of what stands before each, with identifiers for the call sites, and
the table after them. -/
def body (callee : String) : BindingTable → List Occurrence → List Char × BindingTable
  | table, [] => ([], table)
  | table, occurrence :: rest =>
    let (identifier, table) := table.resolve callee (String.ofList occurrence.site.literal)
    let (text, final) := body callee table rest
    (occurrence.gap ++ identifier.toList ++ text, final)

/-- The import declarations of bindings, one on each line. -/
def imports (bindings : List Binding) : List Char :=
  bindings.flatMap fun binding => binding.importDeclaration.toList ++ ['\n']

end Hoisted

/-- Hoists the references that the calls of a callee make. -/
def hoist (callee source : String) : Hoisted :=
  let (occurrences, tail) := (Scanner.start callee source).split
  let (text, table) := Hoisted.body callee .empty occurrences
  let bindings := table.entries.toList
  { code := String.ofList (Hoisted.imports bindings ++ text ++ tail)
    bindings
    callSites := occurrences.length }

/-- The event of a hoisting, if there was a call site. -/
def Hoisted.event? (callee : String) (result : Hoisted) : Option Log.Event :=
  if result.callSites = 0 then none
  else some
    { level := .debug
      target := "template_linker_rewriter::rewriter"
      message := "Hoisted " ++ toString result.callSites ++ " " ++ callee ++
        "() call sites into " ++ toString result.bindings.length ++ " imports" }

end RenderLink
