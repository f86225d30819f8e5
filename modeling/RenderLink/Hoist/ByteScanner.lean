/-
**The search for call sites on bytes.**

A stored source is searched without reading it as characters first: the callee is found by its
bytes, a literal is read byte by byte, and only the text before a callee and the literal itself are
cut out and read. A cut that does not lie between characters ends the search as a fault.

* `offsetOf?_le`: a word stands inside of the bytes that are searched.
-/

import RenderLink.Hoist.Scanner
import RenderLink.Text.Cut

namespace RenderLink

open Text

/-! ### Literals -/

/-- The byte of an ASCII character. -/
def byteOf (c : Char) : UInt8 := UInt8.ofNat c.toNat

/-- The state after one more byte. -/
def LiteralState.stepByte (mark byte : UInt8) : LiteralState → LiteralState
  | .escaped => .inside
  | .inside =>
    if byte = byteOf '\\' then .escaped else if byte = mark then .closed else .inside
  | .closed => .closed

/-- The offset behind the closing quotation mark of a literal that has been read up to an offset. -/
def literalStop? (source : List UInt8) (mark : UInt8) (state : LiteralState) (place : Nat) :
    Option Nat :=
  if state = .closed then some place
  else
    match _there : source[place]? with
    | none => none
    | some byte => literalStop? source mark (state.stepByte mark byte) (place + 1)
termination_by source.length - place
decreasing_by
  have within := (List.getElem?_eq_some_iff.mp _there).1
  omega

/-- The offset behind the literal that begins at an offset. -/
def quotedStop? (source : List UInt8) (start : Nat) : Option Nat :=
  match source[start]? with
  | none => none
  | some mark =>
    if mark = byteOf '"' ∨ mark = byteOf '\x27' then literalStop? source mark .inside (start + 1)
    else none

/-! ### Calls -/

/-- The offset of the closing parenthesis, if a literal in parentheses begins at an offset. -/
def closing? (source : List UInt8) (opening : Nat) : Option Nat :=
  if source[opening]? = some (byteOf '(') then
    (quotedStop? source (opening + 1)).filter fun closing => source[closing]? = some (byteOf ')')
  else none

/-- The call of a callee that stands at an offset, if the callee stands there by itself. -/
def byteCall? (callee source : List UInt8) (start : Nat) : Except BadCut (Option CallSite) := do
  let before ← cut source 0 start
  if (decodeLossy before).getLast?.any continuesName then return none
  else
    let opening := start + callee.length
    match closing? source opening with
    | none => return none
    | some closing => do
      let literal ← cut source (opening + 1) closing
      return some { start, stop := closing + 1, literal := decodeLossy literal }

/-! ### The search -/

/-- The offset at which a word first stands. -/
def offsetOf? (word : List UInt8) : List UInt8 → Option Nat
  | [] => if word.isEmpty then some 0 else none
  | byte :: rest =>
    if word.isPrefixOf (byte :: rest) then some 0 else (offsetOf? word rest).map (· + 1)

/-- A word stands inside of the bytes that are searched. -/
theorem offsetOf?_le {word bytes : List UInt8} {offset : Nat}
    (found : offsetOf? word bytes = some offset) : offset ≤ bytes.length := by
  induction bytes generalizing offset with
  | nil =>
    rw [offsetOf?] at found
    split at found <;> cases found
    exact Nat.le_refl 0
  | cons byte rest ih =>
    rw [offsetOf?] at found
    split at found
    · cases found
      exact Nat.zero_le _
    · obtain ⟨place, later, rfl⟩ := Option.map_eq_some_iff.mp found
      exact Nat.succ_le_succ (ih later)

/-- The next call from an offset on, and the offset behind it. A callee that is not called is passed
over by its first character. -/
def searchFrom (callee source : List UInt8) (first : Char) (place : Nat) :
    Except BadCut (Option CallSite × Nat) :=
  match _open : cut source place source.length with
  | .error fault => .error fault
  | .ok rest =>
    match _found : offsetOf? callee rest with
    | none => .ok (none, source.length)
    | some offset =>
      match byteCall? callee source (place + offset) with
      | .error fault => .error fault
      | .ok (some site) => .ok (some site, site.stop)
      | .ok none => searchFrom callee source first (place + offset + first.utf8Size)
termination_by source.length + 1 - place
decreasing_by
  have within := offsetOf?_le _found
  have positive := first.utf8Size_pos
  unfold cut at _open
  split at _open
  · next inside =>
    cases _open
    rw [List.length_drop, List.length_take] at within
    omega
  · cases _open

/-- A search for the call sites of a callee in stored text, and how far it has come. -/
structure ByteScanner where
  callee : List UInt8
  source : List UInt8
  place : Nat := 0

namespace ByteScanner

/-- The search from the beginning of a source. -/
def start (callee source : String) : ByteScanner :=
  { callee := encode callee.toList, source := encode source.toList }

/-- The next call site, and the search behind it. An empty callee has no call sites. -/
def next (scanner : ByteScanner) : Except BadCut (Option CallSite × ByteScanner) :=
  match (decodeLossy scanner.callee).head? with
  | none => .ok (none, scanner)
  | some first => do
    let (site, place) ← searchFrom scanner.callee scanner.source first scanner.place
    return (site, { scanner with place })

/-- What a number of searches in turn find. -/
def results (scanner : ByteScanner) : Nat → Except BadCut (List (Option CallSite))
  | 0 => .ok []
  | n + 1 => do
    let (site, after) ← scanner.next
    let later ← after.results n
    return site :: later

end ByteScanner

end RenderLink
