/-
**What a caller overrides.**

Each of the seven options that the program computes can be given a value by the caller; null is the
same as no value. Any other key is kept for the template compiler.
-/

import RenderLink.Options.Compiler

namespace RenderLink

open Json

/-- The options given by a caller. -/
structure Overrides where
  transformAssetUrls : Option AssetUrlTransform := none
  transformAssetUrlsOptions : Option AssetUrlOptions := none
  isProduction : Option Bool := none
  isFunctional : Option Bool := none
  optimizeSSR : Option Bool := none
  prettify : Option Bool := none
  compilerOptions : Option CompilerOptions := none
  extra : Dictionary Json := ∅

namespace Overrides

instance : Inhabited Overrides := ⟨{}⟩

/-- The members read so far; those without a field of their own stand in reverse order. -/
structure Draft where
  transformAssetUrls : Option (Option AssetUrlTransform) := none
  transformAssetUrlsOptions : Option (Option AssetUrlOptions) := none
  isProduction : Option (Option Bool) := none
  isFunctional : Option (Option Bool) := none
  optimizeSSR : Option (Option Bool) := none
  prettify : Option (Option Bool) := none
  compilerOptions : Option (Option CompilerOptions) := none
  extra : List (String × Json) := []

def fields (levels : Nat) : Fields Draft
  | draft, "transformAssetUrls" =>
    Decoder.field "transformAssetUrls" draft.transformAssetUrls
      (Decoder.optional (AssetUrlTransform.decoder levels))
      fun found => { draft with transformAssetUrls := some found }
  | draft, "transformAssetUrlsOptions" =>
    Decoder.field "transformAssetUrlsOptions" draft.transformAssetUrlsOptions
      (Decoder.optional (AssetUrlOptions.decoder levels))
      fun found => { draft with transformAssetUrlsOptions := some found }
  | draft, "isProduction" =>
    Decoder.field "isProduction" draft.isProduction (Decoder.optional Decoder.boolean)
      fun found => { draft with isProduction := some found }
  | draft, "isFunctional" =>
    Decoder.field "isFunctional" draft.isFunctional (Decoder.optional Decoder.boolean)
      fun found => { draft with isFunctional := some found }
  | draft, "optimizeSSR" =>
    Decoder.field "optimizeSSR" draft.optimizeSSR (Decoder.optional Decoder.boolean)
      fun found => { draft with optimizeSSR := some found }
  | draft, "prettify" =>
    Decoder.field "prettify" draft.prettify (Decoder.optional Decoder.boolean)
      fun found => { draft with prettify := some found }
  | draft, "compilerOptions" =>
    Decoder.field "compilerOptions" draft.compilerOptions
      (Decoder.optional (CompilerOptions.decoder levels))
      fun found => { draft with compilerOptions := some found }
  | draft, key =>
    .ok ((Decoder.value levels).map fun found =>
      { draft with extra := (key, found) :: draft.extra })

def Draft.finish (draft : Draft) : Overrides :=
  { transformAssetUrls := draft.transformAssetUrls.join
    transformAssetUrlsOptions := draft.transformAssetUrlsOptions.join
    isProduction := draft.isProduction.join
    isFunctional := draft.isFunctional.join
    optimizeSSR := draft.optimizeSSR.join
    prettify := draft.prettify.join
    compilerOptions := draft.compilerOptions.join
    extra := Json.dictionary draft.extra.reverse }

def decoder (levels : Nat) : Decoder Overrides :=
  Decoder.object "TemplateOverrides" levels fields {} fun draft => .ok draft.finish

/-- The overrides that a text holds. -/
def parse (source : String) : Except ReadError Overrides :=
  decode (decoder nestingLimit) source

/-- The form in which overrides are written: all seven options, then the other keys. -/
def toJson (overrides : Overrides) : Json :=
  .object <|
    [("transformAssetUrls", orNull (overrides.transformAssetUrls.map AssetUrlTransform.toJson)),
      ("transformAssetUrlsOptions",
        orNull (overrides.transformAssetUrlsOptions.map AssetUrlOptions.toJson)),
      ("isProduction", orNull (overrides.isProduction.map .bool)),
      ("isFunctional", orNull (overrides.isFunctional.map .bool)),
      ("optimizeSSR", orNull (overrides.optimizeSSR.map .bool)),
      ("prettify", orNull (overrides.prettify.map .bool)),
      ("compilerOptions", orNull (overrides.compilerOptions.map CompilerOptions.toJson))] ++
    overrides.extra.entries

end Overrides

end RenderLink
