/-
**Compiler bundles.**

A bundle is a script that should define an entry point. Bundles are described by what their entry
point does; a description can be stored as JSON (`Bundle.ofText`).
-/

import RenderLink.Bundle.Image
import RenderLink.Bundle.Occurrence
import RenderLink.Bundle.ScriptText
import RenderLink.EntryPoint
import RenderLink.FileSystem.Disk

namespace RenderLink

open Json Text

/-- A kind of value that is no text. -/
inductive ForeignValue where
  | number
  | undefined
  | object
  | null
  deriving DecidableEq, Repr

def ForeignValue.name : ForeignValue → String
  | .number => "int"
  | .undefined => "undefined"
  | .object => "object"
  | .null => "null"

/-- A compiler bundle, by what its entry point does. -/
inductive Bundle where
  /-- Returns a text. -/
  | returns (value : String)
  /-- Returns the options as code and the template as a tip. -/
  | echo
  /-- Returns one of the options as code. -/
  | field (name : String)
  /-- Reports every occurrence of a text in the template as a tip and an error. -/
  | find (needle : String)
  /-- Lists the sources of the images in the template. -/
  | assets
  /-- The script defines no entry point. -/
  | withoutEntryPoint
  /-- The script throws, when it is loaded or when it is called. -/
  | throws
  /-- Returns a value that is no text. -/
  | returnsForeign (value : ForeignValue)
  deriving DecidableEq, Repr

namespace Bundle

/-- The function that a script must define. -/
def entryPoint : String := "__compileTemplate"

/-! ### Running a bundle -/

/-- The value that a member of the options has in a script, where the last one counts. -/
def option? (options : Json) (name : String) : Option Json :=
  match options with
  | .object members => lastMember? name members
  | _ => none

/-- The base of relative asset URLs among the options. -/
def optionBase? (options : Json) : Option String := do
  (← option? (← option? options "transformAssetUrlsOptions") "base").text?

/-- The text of an output without ranges. -/
def outputText (code : String) (tips : List String) : String :=
  (Json.object
    [("code", .string code), ("tips", .list (tips.map .string)), ("errors", .list [])]).toText

/-- A diagnostic with a range, as a script writes it. -/
def rangedJson (message : String) (range : Nat × Nat) : Json :=
  .object [("msg", .string message),
    ("start", .number (.natural (UInt64.ofNat range.1))),
    ("end", .number (.natural (UInt64.ofNat range.2)))]

/-- The text that the entry point returns for a template and the text of its options. -/
def call (bundle : Bundle) (source options : String) : Except CompilerError String :=
  let read := (parse options).toOption.getD .null
  match bundle with
  | .returns value => .ok value
  | .echo => .ok (outputText options [source])
  | .field name =>
    .ok (outputText
      (match option? read name with
        | some value => String.ofList (scriptText value)
        | none => "undefined")
      [])
  | .find needle =>
    let ranges := occurrencesOf needle source
    .ok (Json.object
      [("code", .string source),
        ("tips", .list (ranges.map (rangedJson ("tip " ++ needle)))),
        ("errors", .list (ranges.map (rangedJson ("found " ++ needle))))]).toText
  | .assets => .ok (outputText (imagesCode (optionBase? read) (images source.toList)) [])
  | .withoutEntryPoint =>
    .error (.compilation ("Compiler bundle does not define " ++ entryPoint))
  | .throws => .error (.runtime "Exception generated by QuickJS")
  | .returnsForeign value =>
    .error (.runtime ("Error converting from js '" ++ value.name ++ "' into type 'string'"))

/-- The template compiler that runs a bundle. -/
def compiler (bundle : Bundle) : TemplateCompiler := EntryPoint.compiler bundle.call

/-! ### Descriptions -/

/-- The bundle that a JSON description stands for. -/
def ofJson? (description : Json) : Option Bundle := do
  let kind ← (← option? description "kind").text?
  match kind with
  | "returns" => return .returns (← (← option? description "value").text?)
  | "echo" => return .echo
  | "field" => return .field (← (← option? description "name").text?)
  | "find" => return .find (← (← option? description "needle").text?)
  | "assets" => return .assets
  | "none" | "empty" | "not_function" => return .withoutEntryPoint
  | "syntax_error" | "throws_on_load" | "throws" => return .throws
  | "returns_number" => return .returnsForeign .number
  | "returns_undefined" => return .returnsForeign .undefined
  | "returns_object" => return .returnsForeign .object
  | "returns_null" => return .returnsForeign .null
  | _ => none

/-- The bundle that a text stands for. A blank script defines no entry point, and a text that is no
description is a script that throws. -/
def ofText (text : String) : Bundle :=
  match (parse text).toOption.bind ofJson? with
  | some bundle => bundle
  | none => if text.toList.all Reader.isSpace then .withoutEntryPoint else .throws

/-- Loads a bundle from a disk. -/
def load {m : Type → Type} [Monad m] (disk : Disk m) (path : Path) :
    m (Except CompilerError Bundle) := do
  match ← disk.readText path with
  | .ok text => return .ok (ofText text)
  | .error cause => return .error (.io cause)

end Bundle

end RenderLink
