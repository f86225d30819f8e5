/-
**Which events are written.**

A filter is a list of directives separated by commas. Of the directives that speak about an event
the most specific one decides: the one with the longest path, or among those one with a field, or
among equals the last.
-/

import RenderLink.Log.Directive

namespace RenderLink.Log

abbrev Filter := List Directive

/-- Whether a directive speaks about an event. Events stand in no span, and the message is the only
field that they have. -/
def Directive.covers (directive : Directive) (event : Event) : Bool :=
  !directive.insideSpan && directive.path.toList.isPrefixOf event.target.toList &&
    directive.field.all fun name => name = "message"

/-- Whether a directive is more specific than another one. -/
def Directive.isMoreSpecific (directive other : Directive) : Bool :=
  other.path.length < directive.path.length ||
    (directive.path.length = other.path.length && directive.field.isSome && other.field.isNone)

namespace Filter

/-- The texts of the directives of a filter. -/
def directiveTexts (text : String) : List String :=
  (text.splitOn ",").filter fun part => !part.isEmpty

/-- The filter that a text stands for. Directives that cannot be read do not count, and a text
without any directive writes errors only. -/
def ofText (text : String) : Filter :=
  match (directiveTexts text).filterMap fun part => (Directive.parse part.toList).toOption with
  | [] => [{ rank := Level.error.rank }]
  | directives => directives

def remark? (text : String) : Option String :=
  match Directive.parse text.toList with
  | .ok _ => none
  | .error error => some ("ignoring `" ++ text ++ "`: " ++ error.message)

/-- The remarks about the directives of a filter that cannot be read. -/
def remarks (text : String) : List String := (directiveTexts text).filterMap remark?

/-- The more specific of two directives, or the second one of equals. -/
def moreSpecific (chosen : Option Directive) (directive : Directive) : Option Directive :=
  match chosen with
  | none => some directive
  | some earlier => if earlier.isMoreSpecific directive then some earlier else some directive

/-- Whether an event is written. -/
def allows (filter : Filter) (event : Event) : Bool :=
  match (filter.filter fun directive => directive.covers event).foldl moreSpecific none with
  | none => false
  | some directive => event.level.rank ≤ directive.rank

end Filter

end RenderLink.Log
