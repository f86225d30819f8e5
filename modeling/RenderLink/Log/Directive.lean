/-
**Directives of a log filter.**

A directive is a level, a module path, or a path and a level joined by an equals sign; a level is
written by name or by number, and without a level everything is written. Behind the path a span can
stand in brackets, with a field in braces. The white space at the ends does not count when the
parts of a directive are looked for, but each part is cut from the text as it was given.
-/

import RenderLink.Log
import RenderLink.Text.Alphanumeric
import RenderLink.Text.Utf8
import RenderLink.Text.WhiteSpace

namespace RenderLink.Log

open Text

/-- The least important rank that is written for some events; zero writes nothing. -/
structure Directive where
  /-- What the path of the reporting module begins with. -/
  path : String := ""
  /-- A field that the event has. -/
  field : Option String := none
  /-- Whether it speaks only about what happens inside a span. -/
  insideSpan : Bool := false
  rank : Nat := Level.trace.rank
  deriving DecidableEq, Repr

/-- Why a directive cannot be read. -/
inductive DirectiveError where
  | malformed
  | unknownLevel
  deriving DecidableEq, Repr

def DirectiveError.message : DirectiveError → String
  | .malformed => "invalid filter directive"
  | .unknownLevel =>
    "error parsing level filter: expected one of \"off\", \"error\", \"warn\", \"info\", " ++
      "\"debug\", \"trace\", or a number 0-5"

/-! ### Levels -/

/-- The rank that a number stands for. A plus sign and leading zeros change nothing. -/
def numberedRank? (word : List Char) : Option Nat :=
  let digits := if word.head? = some '+' then word.tail else word
  if digits.isEmpty || !digits.all Char.isDigit then none
  else
    let value := Nat.ofDigitChars 10 digits 0
    if value ≤ Level.trace.rank then some value else none

/-- The rank that a name stands for, in letters of either case. -/
def namedRank? (word : List Char) : Option Nat :=
  match String.ofList (word.map Char.toLower) with
  | "off" => some 0
  | "error" => some Level.error.rank
  | "warn" => some Level.warn.rank
  | "info" => some Level.info.rank
  | "debug" => some Level.debug.rank
  | "trace" => some Level.trace.rank
  | _ => none

/-- The rank that a word stands for. -/
def rank? (word : List Char) : Option Nat := (numberedRank? word).or (namedRank? word)

/-! ### Parts of a directive -/

namespace Directive

/-- The rank that the text from a byte offset on stands for; an empty text writes everything. -/
def rankFrom (text : List Char) (offset : Nat) : Except DirectiveError Nat :=
  match dropBytes offset text with
  | [] => .ok Level.trace.rank
  | word =>
    match rank? word with
    | some rank => .ok rank
    | none => .error .unknownLevel

/-- The first character of a class from a byte offset on: its offset, itself and what follows. -/
def firstOf? (p : Char → Bool) (offset : Nat) : List Char → Option (Nat × Char × List Char)
  | [] => none
  | c :: rest => if p c then some (offset, c, rest) else firstOf? p (offset + c.utf8Size) rest

/-- What may follow a span: an equals sign and a level, or nothing. -/
def afterSpan (text : List Char) (directive : Directive) (offset : Nat) :
    List Char → Except DirectiveError Directive
  | [] => .ok directive
  | '=' :: _ => (rankFrom text (offset + 1)).map fun rank => { directive with rank }
  | _ :: _ => .error .malformed

/-- A field and the end of its span. A field with a value is one that a span has. -/
def field? (text : List Char) (directive : Directive) (offset : Nat) (rest : List Char) :
    Except DirectiveError Directive :=
  match firstOf? (fun c => c = '\x7d') offset rest with
  | some (stop, _, ']' :: rest) =>
    let content := dropBytes offset (takeBytes stop text)
    if stop = offset then .error .malformed
    else
      afterSpan text
        { directive with
          field := some (String.ofList (content.takeWhile fun c => c ≠ '='))
          insideSpan := directive.insideSpan || content.contains '=' }
        (stop + 2) rest
  | _ => .error .malformed

/-- A span behind its opening bracket, with its name or a field or both. -/
def span (text : List Char) (directive : Directive) (offset : Nat) (rest : List Char) :
    Except DirectiveError Directive :=
  match firstOf? (fun c => c = ']' || c = '\x7b') offset rest with
  | none => .error .malformed
  | some (stop, bracket, rest) =>
    if bracket = ']' then afterSpan text { directive with insideSpan := true } (stop + 1) rest
    else field? text { directive with insideSpan := stop ≠ offset } (stop + 1) rest

/-- Whether a path can begin with a character. -/
def beginsPath (c : Char) : Bool := isAlphanumeric c || c = '-' || c = ':' || c = '_'

/-- The directive of a text without an equals sign and brackets: a level, or else a path. -/
def levelOrPath (text : List Char) : Directive :=
  match rank? text with
  | some rank => { rank }
  | none => { path := String.ofList text }

/-- The directive that a text stands for. -/
def parse (text : List Char) : Except DirectiveError Directive :=
  match trim text with
  | [] => .error .malformed
  | c :: rest =>
    if c = '[' then span text {} 1 rest
    else if !beginsPath c then .error .malformed
    else
      match firstOf? (fun c => c = '=' || c = '[') c.utf8Size rest with
      | none => .ok (levelOrPath text)
      | some (stop, sign, rest) =>
        let directive : Directive := { path := String.ofList (takeBytes stop text) }
        if sign = '=' then
          (rankFrom text (stop + 1)).map fun rank => { directive with rank }
        else span text directive (stop + 1) rest

end Directive

end RenderLink.Log
