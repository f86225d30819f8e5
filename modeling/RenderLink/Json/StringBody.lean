/-
**Strings of a text.**

A string is read behind its opening quotation mark. One that is kept has its escapes resolved, and
surrogates must come in pairs; one that is passed over is checked for its shape only, so a lone
surrogate goes unnoticed in it.

* `stringFrom_notLonger`: reading a string never makes the text longer.
-/

import RenderLink.Json.Reader
import RenderLink.Text.Utf8

namespace RenderLink.Json

def hexValue? (c : Char) : Option Nat :=
  if '0' ≤ c ∧ c ≤ '9' then some (c.toNat - '0'.toNat)
  else if 'a' ≤ c ∧ c ≤ 'f' then some (c.toNat - 'a'.toNat + 10)
  else if 'A' ≤ c ∧ c ≤ 'F' then some (c.toNat - 'A'.toNat + 10)
  else none

/-- Four hexadecimal digits. A text of fewer than four bytes has ended too early. -/
def hexCode : Reader Nat where
  run
    | a :: b :: c :: d :: rest =>
      match hexValue? a, hexValue? b, hexValue? c, hexValue? d with
      | some a, some b, some c, some d => .ok (((a * 16 + b) * 16 + c) * 16 + d, rest)
      | _, _, _, _ => .error .notJson
    | text => if Text.byteLength text < 4 then .error .endOfText else .error .notJson
  notLonger {text value rest} read := by
    split at read
    · split at read
      · cases read
        simp only [List.length_cons]
        omega
      · cases read
    · split at read <;> cases read

/-- Whether a code is that of a high surrogate. -/
def isHighSurrogate (code : Nat) : Bool := 0xD800 ≤ code && code < 0xDC00

/-- Whether a code is that of a low surrogate. -/
def isLowSurrogate (code : Nat) : Bool := 0xDC00 ≤ code && code < 0xE000

/-- The character of an escape of two signs, by its second sign. -/
def shortEscape? (c : Char) : Option Char :=
  if c = '"' ∨ c = '\\' ∨ c = '/' then some c
  else if c = 'b' then some (Char.ofNat 8)
  else if c = 'f' then some (Char.ofNat 12)
  else if c = 'n' then some '\n'
  else if c = 'r' then some '\r'
  else if c = 't' then some '\t'
  else none

/-- The character of an escape, after its backslash. Surrogates come in pairs. -/
def escapeSequence : Reader Char := do
  let sign ← Reader.next
  match shortEscape? sign with
  | some c => pure c
  | none =>
    if sign ≠ 'u' then Reader.fail .notJson
    else
      let code ← hexCode
      if isLowSurrogate code then Reader.fail .notJson
      else if isHighSurrogate code then
        Reader.expect ['\\', 'u']
        let low ← hexCode
        if isLowSurrogate low then
          pure (Char.ofNat (0x10000 + (code - 0xD800) * 0x400 + (low - 0xDC00)))
        else Reader.fail .notJson
      else pure (Char.ofNat code)

/-- An escape that is passed over, after its backslash. -/
def skippedEscape : Reader Char := do
  let sign ← Reader.next
  match shortEscape? sign with
  | some c => pure c
  | none =>
    if sign ≠ 'u' then Reader.fail .notJson
    else
      let _ ← hexCode
      pure '\uFFFD'

/-- The characters of a string up to its closing quotation mark, with a reader for escapes. -/
def stringFrom (escape : Reader Char) : List Char → Reading (List Char)
  | [] => .error .endOfText
  | c :: text =>
    if c = '"' then .ok ([], text)
    else if c = '\\' then
      match _resolved : escape.run text with
      | .error error => .error error
      | .ok (first, after) =>
        match stringFrom escape after with
        | .error error => .error error
        | .ok (others, rest) => .ok (first :: others, rest)
    else if c.toNat < 0x20 then .error .notJson
    else
      match stringFrom escape text with
      | .error error => .error error
      | .ok (others, rest) => .ok (c :: others, rest)
termination_by text => text.length
decreasing_by
  · have shorter := escape.notLonger _resolved
    simp only [List.length_cons]
    omega
  · simp

/-- Reading a string never makes the text longer. -/
theorem stringFrom_notLonger (escape : Reader Char) {text value rest : List Char}
    (read : stringFrom escape text = .ok (value, rest)) : rest.length ≤ text.length := by
  fun_induction stringFrom escape text generalizing value with
  | case1 => cases read
  | case2 => cases read; simp
  | case3 => cases read
  | case4 => cases read
  | case5 text first after resolved others last tail differs ih =>
    cases read
    have kept := escape.notLonger resolved
    have shorter := ih tail
    simp only [List.length_cons]
    omega
  | case6 => cases read
  | case7 => cases read
  | case8 c text unquoted unescaped printable others last tail ih =>
    cases read
    have shorter := ih tail
    simp only [List.length_cons]
    omega

/-- The characters of a string after its opening quotation mark. -/
def stringBody : Reader (List Char) where
  run := stringFrom escapeSequence
  notLonger := stringFrom_notLonger escapeSequence

/-- Passes over a string after its opening quotation mark. -/
def skipString : Reader Unit where
  run text :=
    match stringFrom skippedEscape text with
    | .error error => .error error
    | .ok (_, rest) => .ok ((), rest)
  notLonger read := by
    split at read
    · cases read
    · next tail => cases read; exact stringFrom_notLonger skippedEscape tail

end RenderLink.Json
