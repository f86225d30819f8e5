/-
**The options of one compilation.**

The template and its file name stand beside the seven options. They start from computed defaults,
and a caller's override of an option replaces it; the other keys of the overrides replace those of
the options as a whole.

* `applyOverrides_source`, `applyOverrides_filename`: no override reaches the template itself.
-/

import RenderLink.Options.Overrides

namespace RenderLink

open Json

/-- The options of one compilation. -/
structure CompileOptions where
  source : String
  filename : String
  transformAssetUrls : AssetUrlTransform
  transformAssetUrlsOptions : AssetUrlOptions
  isProduction : Bool
  isFunctional : Bool
  optimizeSSR : Bool
  prettify : Bool
  compilerOptions : CompilerOptions
  extra : Dictionary Json

namespace CompileOptions

/-- The options before any override. -/
def defaults (source filename : String) (assetUrls : AssetUrlOptions)
    (isProduction isFunctional : Bool) : CompileOptions :=
  { source, filename
    transformAssetUrls := .enabled true
    transformAssetUrlsOptions := assetUrls
    isProduction, isFunctional
    optimizeSSR := false
    prettify := false
    compilerOptions := {}
    extra := ∅ }

/-- The options with a caller's overrides in place of their own values. -/
def applyOverrides (options : CompileOptions) (overrides : Overrides) : CompileOptions :=
  { source := options.source
    filename := options.filename
    transformAssetUrls := overrides.transformAssetUrls.getD options.transformAssetUrls
    transformAssetUrlsOptions :=
      overrides.transformAssetUrlsOptions.getD options.transformAssetUrlsOptions
    isProduction := overrides.isProduction.getD options.isProduction
    isFunctional := overrides.isFunctional.getD options.isFunctional
    optimizeSSR := overrides.optimizeSSR.getD options.optimizeSSR
    prettify := overrides.prettify.getD options.prettify
    compilerOptions := overrides.compilerOptions.getD options.compilerOptions
    extra := overrides.extra }

@[simp] theorem applyOverrides_source (options : CompileOptions) (overrides : Overrides) :
    (options.applyOverrides overrides).source = options.source := rfl

@[simp] theorem applyOverrides_filename (options : CompileOptions) (overrides : Overrides) :
    (options.applyOverrides overrides).filename = options.filename := rfl

/-- The form in which the options are written: the named options, then the other keys, which may
repeat `source` and `filename`. -/
def toJson (options : CompileOptions) : Json :=
  .object <|
    [("source", .string options.source),
      ("filename", .string options.filename),
      ("transformAssetUrls", options.transformAssetUrls.toJson),
      ("transformAssetUrlsOptions", options.transformAssetUrlsOptions.toJson),
      ("isProduction", .bool options.isProduction),
      ("isFunctional", .bool options.isFunctional),
      ("optimizeSSR", .bool options.optimizeSSR),
      ("prettify", .bool options.prettify),
      ("compilerOptions", options.compilerOptions.toJson)] ++
    options.extra.entries

/-! ### Reading -/

/-- The members read so far; those without a field of their own stand in reverse order. -/
structure Draft where
  source : Option String := none
  filename : Option String := none
  transformAssetUrls : Option AssetUrlTransform := none
  transformAssetUrlsOptions : Option AssetUrlOptions := none
  isProduction : Option Bool := none
  isFunctional : Option Bool := none
  optimizeSSR : Option Bool := none
  prettify : Option Bool := none
  compilerOptions : Option CompilerOptions := none
  extra : List (String × Json) := []

def fields (levels : Nat) : Fields Draft
  | draft, "source" =>
    Decoder.field "source" draft.source Decoder.text
      fun found => { draft with source := some found }
  | draft, "filename" =>
    Decoder.field "filename" draft.filename Decoder.text
      fun found => { draft with filename := some found }
  | draft, "transformAssetUrls" =>
    Decoder.field "transformAssetUrls" draft.transformAssetUrls (AssetUrlTransform.decoder levels)
      fun found => { draft with transformAssetUrls := some found }
  | draft, "transformAssetUrlsOptions" =>
    Decoder.field "transformAssetUrlsOptions" draft.transformAssetUrlsOptions
      (AssetUrlOptions.decoder levels)
      fun found => { draft with transformAssetUrlsOptions := some found }
  | draft, "isProduction" =>
    Decoder.field "isProduction" draft.isProduction Decoder.boolean
      fun found => { draft with isProduction := some found }
  | draft, "isFunctional" =>
    Decoder.field "isFunctional" draft.isFunctional Decoder.boolean
      fun found => { draft with isFunctional := some found }
  | draft, "optimizeSSR" =>
    Decoder.field "optimizeSSR" draft.optimizeSSR Decoder.boolean
      fun found => { draft with optimizeSSR := some found }
  | draft, "prettify" =>
    Decoder.field "prettify" draft.prettify Decoder.boolean
      fun found => { draft with prettify := some found }
  | draft, "compilerOptions" =>
    Decoder.field "compilerOptions" draft.compilerOptions (CompilerOptions.decoder levels)
      fun found => { draft with compilerOptions := some found }
  | draft, key =>
    .ok ((Decoder.value levels).map fun found =>
      { draft with extra := (key, found) :: draft.extra })

/-- The options of the members read, of which none but the other keys may be missing. -/
def Draft.finish (draft : Draft) : Except ReadError CompileOptions := do
  let source ← Decoder.required "source" draft.source
  let filename ← Decoder.required "filename" draft.filename
  let transformAssetUrls ← Decoder.required "transformAssetUrls" draft.transformAssetUrls
  let transformAssetUrlsOptions ←
    Decoder.required "transformAssetUrlsOptions" draft.transformAssetUrlsOptions
  let isProduction ← Decoder.required "isProduction" draft.isProduction
  let isFunctional ← Decoder.required "isFunctional" draft.isFunctional
  let optimizeSSR ← Decoder.required "optimizeSSR" draft.optimizeSSR
  let prettify ← Decoder.required "prettify" draft.prettify
  let compilerOptions ← Decoder.required "compilerOptions" draft.compilerOptions
  return { source, filename, transformAssetUrls, transformAssetUrlsOptions, isProduction,
           isFunctional, optimizeSSR, prettify, compilerOptions,
           extra := Json.dictionary draft.extra.reverse }

def decoder (levels : Nat) : Decoder CompileOptions :=
  Decoder.object "CompileTemplateOptions" levels fields {} Draft.finish

end CompileOptions

end RenderLink
