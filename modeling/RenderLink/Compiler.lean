/-
**Template compilers.**

A template compiler turns the options of a compilation into code with diagnostics, or fails as a
whole. It may be able to show ranges of the source as code frames.
-/

import RenderLink.CodeFrame
import RenderLink.FileSystem.Error
import RenderLink.Options.Compile
import RenderLink.Options.Error
import RenderLink.Output

namespace RenderLink

open Json

/-- Why a template compiler fails. -/
inductive CompilerError where
  /-- The script could not be run to its end. -/
  | runtime (description : String)
  /-- The script cannot compile templates. -/
  | compilation (description : String)
  | invalidOutput (cause : OptionsError)
  | serialization (cause : ReadError)
  | io (cause : FileError)
  deriving DecidableEq, Repr

namespace CompilerError

def message : CompilerError → String
  | .runtime description => "Runtime error: " ++ description
  | .compilation description => "Compilation failed: " ++ description
  | .invalidOutput cause => "Invalid compiler output: " ++ cause.message
  | .serialization cause => "Serialization error: " ++ cause.message
  | .io cause => "IO error: " ++ cause.message

def chain (error : CompilerError) : List String :=
  match error with
  | .runtime _ | .compilation _ => [error.message]
  | .invalidOutput cause => error.message :: cause.chain
  | .serialization cause => [error.message, cause.message]
  | .io cause => [error.message, cause.message]

end CompilerError

structure TemplateCompiler where
  compile : CompileOptions → Except CompilerError TemplateOutput
  /-- Whether ranged errors can be shown as code frames. -/
  supportsCodeFrames : Bool := true
  codeFrame : String → UInt64 → UInt64 → String := CodeFrame.render

end RenderLink
