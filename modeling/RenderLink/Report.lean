/-
**Reports to the host.**

A report names the file that a diagnostic belongs to and carries its message and, for a ranged
error, the code frame.
-/

import RenderLink.Json.Decode

namespace RenderLink

open Json

/-- A report about one file. -/
structure Report where
  /-- The file, as it was given. -/
  id : String
  message : String
  frame : Option String := none
  deriving DecidableEq, Repr

namespace Report

def toJson (report : Report) : Json :=
  .object <|
    [("id", .string report.id), ("message", .string report.message)] ++
    optionalMember "frame" (report.frame.map .string)

structure Draft where
  id : Option String := none
  message : Option String := none
  frame : Option (Option String) := none

def fields : Fields Draft
  | draft, "id" =>
    Decoder.field "id" draft.id Decoder.text fun found => { draft with id := some found }
  | draft, "message" =>
    Decoder.field "message" draft.message Decoder.text
      fun found => { draft with message := some found }
  | draft, "frame" =>
    Decoder.field "frame" draft.frame (Decoder.optional Decoder.text)
      fun found => { draft with frame := some found }
  | draft, _ => Decoder.unknownField draft

def Draft.finish (draft : Draft) : Except ReadError Report := do
  let id ← Decoder.required "id" draft.id
  let message ← Decoder.required "message" draft.message
  return { id, message, frame := draft.frame.join }

def fromList : Reader Report := do
  let id ← Decoder.requiredElement Decoder.text 0 (.fields "ErrorReport" 3)
  let message ← Decoder.requiredElement Decoder.text 1 (.fields "ErrorReport" 3)
  let frame ← element? (Decoder.optional Decoder.text) false
  pure { id, message, frame := frame.join }

def decoder (levels : Nat) : Decoder Report :=
  Decoder.objectOrList "ErrorReport" levels (fun _ => fields) {} Draft.finish fun _ => fromList

end Report

end RenderLink
