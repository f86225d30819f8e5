/-
**Compilers that call an entry point.**

An entry point is a function of the template and of the text of its options that returns the text of
an output. The ranges of the output count UTF-16 units, and the compiler converts them to
characters.
-/

import RenderLink.Compiler
import RenderLink.Text.Utf16

namespace RenderLink

open Json Text

/-- A diagnostic with its range in characters of the template. -/
def Diagnostic.inCharacters (source : String) : Diagnostic → Diagnostic
  | .plain message => .plain message
  | .ranged message start stop =>
    let convert (offset : UInt64) := UInt64.ofNat (charOffset source.toList offset.toNat)
    .ranged message (convert start) (convert stop)

/-- What an entry point returns for a template and the text of its options, or why it fails. -/
abbrev EntryPoint := String → String → Except CompilerError String

/-- The template compiler that calls an entry point. -/
def EntryPoint.compiler (call : EntryPoint) : TemplateCompiler where
  compile options := do
    let text ← call options.source options.toJson.toText
    match TemplateOutput.parse text with
    | .error cause => .error (.invalidOutput (.unreadable cause))
    | .ok output =>
      .ok { output with
        tips := output.tips.map (Diagnostic.inCharacters options.source)
        errors := output.errors.map (Diagnostic.inCharacters options.source) }

end RenderLink
