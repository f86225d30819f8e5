/-
**The search for call sites.**

A scanner finds the call sites of a source one after another, from left to right, and goes on behind
each of them.

* `next_shorter`: finding a call site leaves less text to search.
-/

import RenderLink.Hoist.CallSite

namespace RenderLink

/-- A search for the call sites of a callee, and how far it has come. -/
structure Scanner where
  callee : List Char
  cursor : Cursor

namespace Scanner

/-- The search from the beginning of a source. -/
def start (callee source : String) : Scanner := ⟨callee.toList, { rest := source.toList }⟩

/-- The next call site, and the search behind it. An empty callee has no call sites, and behind the
last call site the search stands at the end of the source. -/
def next (scanner : Scanner) : Option Occurrence × Scanner :=
  match if scanner.callee.isEmpty then none else nextFrom scanner.callee scanner.cursor with
  | some (occurrence, after) => (some occurrence, { scanner with cursor := after })
  | none => (none, { scanner with cursor := scanner.cursor.over scanner.cursor.rest [] })

/-- Finding a call site leaves less text to search. -/
theorem next_shorter {scanner after : Scanner} {occurrence : Occurrence}
    (found : scanner.next = (some occurrence, after)) :
    after.cursor.rest.length < scanner.cursor.rest.length := by
  unfold next at found
  split at found
  · next occurrence' cursor searched =>
    cases found
    split at searched
    · cases searched
    · exact nextFrom_shorter searched
  · cases found

/-- All call sites from where the search stands, each with the text before it, and the text behind
the last one. -/
def split (scanner : Scanner) : List Occurrence × List Char :=
  match _found : scanner.next with
  | (none, _) => ([], scanner.cursor.rest)
  | (some occurrence, after) =>
    let (occurrences, tail) := after.split
    (occurrence :: occurrences, tail)
termination_by scanner.cursor.rest.length
decreasing_by exact next_shorter _found

def sites (scanner : Scanner) : List CallSite :=
  scanner.split.1.map Occurrence.site

end Scanner

end RenderLink
