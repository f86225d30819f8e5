/-
**Passing over a value.**

A value that nobody asked for is checked for its shape and dropped. The check keeps the open
brackets in a stack, so it has no limit on nesting.

* `skipFrom_notLonger`: passing over never makes the text longer.
-/

import RenderLink.Json.Container
import RenderLink.Json.Numeral

namespace RenderLink.Json

inductive Bracket where
  | list
  | object
  deriving DecidableEq, Repr

def Bracket.closing : Bracket → Char
  | .list => ']'
  | .object => '\x7d'

/-- What may come next, with the brackets that are open, the innermost first. -/
inductive Awaited where
  | value (brackets : List Bracket)
  /-- The first element of a bracket, or its end. -/
  | opened (bracket : Bracket) (outer : List Bracket)
  | key (outer : List Bracket)
  /-- A comma or the end of the innermost bracket; nothing, when no bracket is open. -/
  | after (brackets : List Bracket)
  deriving DecidableEq, Repr

/-- Passes over a value, or over its opening bracket. -/
def skipHead (brackets : List Bracket) : Decoder Awaited := fun head => do
  if head = 'n' then
    Reader.expect ['u', 'l', 'l']
    pure (.after brackets)
  else if head = 't' then
    Reader.expect ['r', 'u', 'e']
    pure (.after brackets)
  else if head = 'f' then
    Reader.expect ['a', 'l', 's', 'e']
    pure (.after brackets)
  else if head = '-' ∨ head.isDigit then
    skipNumber head
    pure (.after brackets)
  else if head = '"' then
    skipString
    pure (.after brackets)
  else if head = '[' then pure (.opened .list brackets)
  else if head = '\x7b' then pure (.opened .object brackets)
  else Reader.fail .notJson

/-- Passes over a key and its colon. -/
def skipKey (outer : List Bracket) : Decoder Awaited := fun head => do
  if head = '"' then
    skipString
    colon
    pure (.value (.object :: outer))
  else Reader.fail .notJson

/-- Passes over one token, or over a key with its colon. -/
def Awaited.skip : Awaited → Decoder Awaited
  | .value brackets => skipHead brackets
  | .key outer => skipKey outer
  | .opened bracket outer => fun head =>
    if head = bracket.closing then pure (.after outer)
    else
      match bracket with
      | .list => skipHead (.list :: outer) head
      | .object => skipKey outer head
  | .after [] => fun _ => Reader.fail .notJson
  | .after (bracket :: outer) => fun head =>
    if head = ',' then
      match bracket with
      | .list => pure (.value (.list :: outer))
      | .object => pure (.key outer)
    else if head = bracket.closing then pure (.after outer)
    else Reader.fail .notJson

/-- Passes over tokens until no bracket is open. -/
def skipFrom (awaited : Awaited) (text : List Char) : Reading Unit :=
  if awaited = .after [] then .ok ((), text)
  else
    match _passed : awaited.skip.read.run text with
    | .error error => .error error
    | .ok (next, rest) => skipFrom next rest
termination_by text.length
decreasing_by exact awaited.skip.read_shorter _passed

/-- Passing over never makes the text longer. -/
theorem skipFrom_notLonger {awaited : Awaited} {text rest : List Char} {value : Unit}
    (read : skipFrom awaited text = .ok (value, rest)) : rest.length ≤ text.length := by
  fun_induction skipFrom awaited text with
  | case1 => cases read; exact Nat.le_refl _
  | case2 => cases read
  | case3 awaited text unfinished next after passed ih =>
    have shorter := awaited.skip.read_shorter passed
    have fewer := ih read
    omega

/-- Passes over what may come next and the rest of its value. -/
def Awaited.skipRest (awaited : Awaited) : Reader Unit where
  run := skipFrom awaited
  notLonger := skipFrom_notLonger

def skipValue : Decoder Unit := fun head => do
  let awaited ← skipHead [] head
  awaited.skipRest

end RenderLink.Json
