/-
**What the template compiler returns.**

The generated code, with the tips and errors that were found. Only the code must be there, and null
stands for a list without diagnostics.
-/

import RenderLink.Diagnostic

namespace RenderLink

open Json

/-- What the template compiler returns. -/
structure TemplateOutput where
  code : String
  tips : List Diagnostic := []
  errors : List Diagnostic := []
  deriving DecidableEq, Repr

namespace TemplateOutput

structure Draft where
  code : Option String := none
  tips : Option (List Diagnostic) := none
  errors : Option (List Diagnostic) := none

/-- Reads diagnostics, null as none. -/
def diagnostics (levels : Nat) : Decoder (List Diagnostic) :=
  (Decoder.optional (Decoder.listOf levels Diagnostic.decoder)).map fun found => found.getD []

def fields (levels : Nat) : Fields Draft
  | draft, "code" =>
    Decoder.field "code" draft.code Decoder.text
      fun found => { draft with code := some found }
  | draft, "tips" =>
    Decoder.field "tips" draft.tips (diagnostics levels)
      fun found => { draft with tips := some found }
  | draft, "errors" =>
    Decoder.field "errors" draft.errors (diagnostics levels)
      fun found => { draft with errors := some found }
  | draft, _ => Decoder.unknownField draft

def Draft.finish (draft : Draft) : Except ReadError TemplateOutput := do
  let code ← Decoder.required "code" draft.code
  return { code, tips := draft.tips.getD [], errors := draft.errors.getD [] }

def fromList (levels : Nat) : Reader TemplateOutput := do
  let code ← Decoder.requiredElement Decoder.text 0 (.fields "TemplateOutput" 3)
  let tips ← element? (diagnostics levels) false
  let errors ← element? (diagnostics levels) false
  pure { code, tips := tips.getD [], errors := errors.getD [] }

def decoder (levels : Nat) : Decoder TemplateOutput :=
  Decoder.objectOrList "TemplateOutput" levels fields {} Draft.finish fromList

/-- The output that a text holds. -/
def parse (source : String) : Except ReadError TemplateOutput :=
  decode (decoder nestingLimit) source

end TemplateOutput

end RenderLink
