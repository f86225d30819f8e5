/-
**The configuration of a build.**

The project root, the mode and the overrides are settled before any file is compiled. With a base
for the live server the generated code is served as it is; without one it is linked statically.

* `validate_eq_ok_iff`: what makes a configuration usable.
-/

import RenderLink.Block
import RenderLink.Options.Compile
import RenderLink.Options.Error
import RenderLink.Path.Relative

namespace RenderLink

/-- The configuration of a build. -/
structure ResolvedOptions where
  /-- The project root, from which asset bases are computed. -/
  root : Path
  isProduction : Bool := false
  overrides : Overrides := {}
  /-- The base path of the live server, in live-server mode. -/
  liveServerBase : Option String := none

namespace ResolvedOptions

/-- Whether the live server serves the result. -/
def isLiveServer (options : ResolvedOptions) : Bool := options.liveServerBase.isSome

/-- The marks around interpolations that the overrides ask for. -/
def delimiters? (options : ResolvedOptions) : Option (String × String) :=
  options.overrides.compilerOptions.bind CompilerOptions.delimiters

/-- Refuses a configuration without a root or with an empty mark around interpolations. -/
def validate (options : ResolvedOptions) : Except OptionsError Unit :=
  if options.root.bytes.isEmpty then .error (.invalid .emptyRoot)
  else
    match options.delimiters? with
    | some (first, second) =>
      if first = "" ∨ second = "" then .error (.invalid (.emptyDelimiter first second))
      else .ok ()
    | none => .ok ()

/-- A configuration is usable when its root is not empty and neither is a mark around
interpolations. -/
theorem validate_eq_ok_iff (options : ResolvedOptions) :
    options.validate = .ok () ↔
      options.root.bytes ≠ [] ∧
        ∀ first second, options.delimiters? = some (first, second) →
          first ≠ "" ∧ second ≠ "" := by
  unfold validate
  cases root : options.root.bytes with
  | nil => simp
  | cons byte rest =>
    cases marks : options.delimiters? with
    | none => simp
    | some pair =>
      obtain ⟨first, second⟩ := pair
      by_cases empty : first = "" <;> by_cases blank : second = "" <;> simp [empty, blank]

/-- The options for the compilation of a block: computed defaults with the overrides in place. -/
def compileOptions (options : ResolvedOptions) (source : String) (block : TemplateBlock)
    (file : Path) : CompileOptions :=
  let assetUrls : AssetUrlOptions :=
    ⟨options.liveServerBase.map fun base => Path.assetBase base options.root file⟩
  (CompileOptions.defaults source file.display assetUrls options.isProduction
    block.functional).applyOverrides options.overrides

end ResolvedOptions

end RenderLink
