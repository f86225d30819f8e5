/-
**Compiling a template block into a module.**

The adapter runs a template compiler with the options of a block, reports every tip and then every
error, and makes a module of the code: dynamic references become imports unless a live server serves
the result, and an export statement follows.
-/

import RenderLink.Compiler
import RenderLink.Hoist.Hoisted
import RenderLink.Options.Resolved
import RenderLink.Report

namespace RenderLink

/-- The statement at the end of every module. -/
def exportStatement : String := "export \x7b render, staticRenderFns \x7d"

/-- A template compiler, with the callee whose calls are dynamic references. -/
structure Adapter where
  compiler : TemplateCompiler
  callee : String := Hoisted.defaultCallee

/-- A module compiled from a template block. -/
structure Compilation where
  text : String
  /-- A report for each tip and then for each error. -/
  reports : List Report
  /-- The event of the compiler's run. -/
  compiled : Log.Event
  /-- The event of the hoisting, if there was a call site. -/
  hoisted : Option Log.Event

namespace Adapter

def tipReport (id : String) (tip : Diagnostic) : Report := { id, message := tip.message }

/-- The report of an error, with a code frame for a range if frames are asked for. -/
def errorReport (adapter : Adapter) (id source : String) (frames : Bool) (error : Diagnostic) :
    Report :=
  match error with
  | .ranged message start stop =>
    { id, message,
      frame := if frames then some (adapter.compiler.codeFrame source start stop) else none }
  | .plain message => { id, message }

def reports (adapter : Adapter) (id source : String) (frames : Bool) (output : TemplateOutput) :
    List Report :=
  output.tips.map (tipReport id) ++ output.errors.map (adapter.errorReport id source frames)

def compiledEvent (id : String) (output : TemplateOutput) : Log.Event :=
  { level := .debug
    target := "template_linker_compiler::adapter"
    message := "Compiled template " ++ id ++ " (" ++ toString output.tips.length ++ " tips, " ++
      toString output.errors.length ++ " errors)" }

/-- The compilation that an output of the compiler leads to. -/
def finish (adapter : Adapter) (options : ResolvedOptions) (compileOptions : CompileOptions)
    (output : TemplateOutput) : Compilation :=
  let id := compileOptions.filename
  let frames :=
    adapter.compiler.supportsCodeFrames && compileOptions.compilerOptions.outputSourceRange
  let reports := adapter.reports id compileOptions.source frames output
  let compiled := compiledEvent id output
  if options.isLiveServer then
    { text := output.code ++ "\n" ++ exportStatement, reports, compiled, hoisted := none }
  else
    let result := hoist adapter.callee output.code
    { text := result.code ++ "\n" ++ exportStatement, reports, compiled
      hoisted := result.event? adapter.callee }

/-- Compiles a template block of a file. -/
def compile (adapter : Adapter) (source : String) (block : TemplateBlock) (file : Path)
    (options : ResolvedOptions) : Except CompilerError Compilation :=
  let compileOptions := options.compileOptions source block file
  (adapter.compiler.compile compileOptions).map (adapter.finish options compileOptions)

end Adapter

end RenderLink
