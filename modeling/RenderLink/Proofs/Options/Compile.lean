/-
**The options of a compilation are read again as they are written.**

Nine options must all be there, and any other key is collected. As no collected key names one of the
nine, what is read is written without repeated keys.

* `CompileOptions.stable`: **what is read is written in a form that is read as the same.**
-/

import RenderLink.Options.Compile
import RenderLink.Proofs.Options.Overrides

namespace RenderLink.CompileOptions

open Json

/-- The nine options; any other key is collected. -/
def table (levels : Nat) : Table Draft where
  slots := [
    { name := "source", Value := String, get := Draft.source
      set := fun draft found => { draft with source := some found }, meaning := textOf },
    { name := "filename", Value := String, get := Draft.filename
      set := fun draft found => { draft with filename := some found }, meaning := textOf },
    { name := "transformAssetUrls", Value := AssetUrlTransform, get := Draft.transformAssetUrls
      set := fun draft found => { draft with transformAssetUrls := some found }
      meaning := AssetUrlTransform.meaning levels },
    { name := "transformAssetUrlsOptions", Value := AssetUrlOptions
      get := Draft.transformAssetUrlsOptions
      set := fun draft found => { draft with transformAssetUrlsOptions := some found }
      meaning := AssetUrlOptions.meaning levels },
    { name := "isProduction", Value := Bool, get := Draft.isProduction
      set := fun draft found => { draft with isProduction := some found }, meaning := booleanOf },
    { name := "isFunctional", Value := Bool, get := Draft.isFunctional
      set := fun draft found => { draft with isFunctional := some found }, meaning := booleanOf },
    { name := "optimizeSSR", Value := Bool, get := Draft.optimizeSSR
      set := fun draft found => { draft with optimizeSSR := some found }, meaning := booleanOf },
    { name := "prettify", Value := Bool, get := Draft.prettify
      set := fun draft found => { draft with prettify := some found }, meaning := booleanOf },
    { name := "compilerOptions", Value := CompilerOptions, get := Draft.compilerOptions
      set := fun draft found => { draft with compilerOptions := some found }
      meaning := CompilerOptions.meaning levels }]
  other key tree := (kept (tree.json? levels)).map fun found draft =>
    { draft with extra := (key, found) :: draft.extra }

theorem table_lawful (levels : Nat) : (table levels).Lawful where
  get_set := by simp [table]
  apart := by simp [table, Table.Apart]
  get_other slot member key tree change known state := by
    obtain ⟨found, -, rfl⟩ := map_eq_ok_iff.mp known
    revert slot member
    simp [table]

theorem collects (levels : Nat) : (table levels).Collects levels Draft.extra where
  extra_set := by simp [table]
  other_eq key tree := ⟨_, rfl, fun _ _ => rfl⟩

theorem fieldsRead (levels : Nat) : FieldsRead (fields levels) (table levels).step := by
  refine (table_lawful levels).fieldsRead ?_ ?_
  · simp only [table, List.forall_mem_cons]
    exact ⟨⟨_, reads_text, fun state => by rw [fields]⟩,
      ⟨_, reads_text, fun state => by rw [fields]⟩,
      ⟨_, AssetUrlTransform.reads levels, fun state => by rw [fields]⟩,
      ⟨_, AssetUrlOptions.reads levels, fun state => by rw [fields]⟩,
      ⟨_, reads_boolean, fun state => by rw [fields]⟩,
      ⟨_, reads_boolean, fun state => by rw [fields]⟩,
      ⟨_, reads_boolean, fun state => by rw [fields]⟩,
      ⟨_, reads_boolean, fun state => by rw [fields]⟩,
      ⟨_, CompilerOptions.reads levels, fun state => by rw [fields]⟩, by simp⟩
  · intro key unnamed state
    simp only [table, Table.names, List.map_cons, List.map_nil, List.mem_cons, not_or] at unnamed
    refine ⟨_, ?_, Table.reads_collected levels (fun found draft =>
      { draft with extra := (key, found) :: draft.extra }) state⟩
    simp [fields, unnamed]

/-- What a state keeps besides the nine options. -/
def rest (draft : Draft) : Dictionary Json := Json.dictionary draft.extra.reverse

/-- The options of a tree. -/
def meaning (levels : Nat) : Tree → Except ReadError CompileOptions :=
  objectOf "CompileTemplateOptions" levels (fun inner => (table inner).step) {} Draft.finish

theorem reads (levels : Nat) : Reads (decoder levels) (meaning levels) :=
  reads_object "CompileTemplateOptions" levels fieldsRead {} _

theorem record (levels : Nat) : Record (table levels) levels {} rest Draft.finish where
  lawful := table_lawful levels
  blank := by simp [table]
  rests := (collects levels).rests (table_lawful levels) rfl
  finish_congr agree same := by
    simp only [table, List.forall_mem_cons] at agree
    obtain ⟨source, filename, transformAssetUrls, transformAssetUrlsOptions, isProduction,
      isFunctional, optimizeSSR, prettify, compilerOptions, -⟩ := agree
    unfold rest at same
    unfold Draft.finish
    rw [source, filename, transformAssetUrls, transformAssetUrlsOptions, isProduction,
      isFunctional, optimizeSSR, prettify, compilerOptions, same]
  respects := by
    simp only [table, List.forall_mem_cons]
    exact ⟨respects_text, respects_text, (AssetUrlTransform.stable levels).respects,
      (AssetUrlOptions.stable levels).respects, respects_boolean, respects_boolean,
      respects_boolean, respects_boolean, (CompilerOptions.stable levels).respects, by simp⟩

/-- The members that are written for the nine options. -/
def knownMembers (options : CompileOptions) : List (String × Json) :=
  [("source", .string options.source),
    ("filename", .string options.filename),
    ("transformAssetUrls", options.transformAssetUrls.toJson),
    ("transformAssetUrlsOptions", options.transformAssetUrlsOptions.toJson),
    ("isProduction", .bool options.isProduction),
    ("isFunctional", .bool options.isFunctional),
    ("optimizeSSR", .bool options.optimizeSSR),
    ("prettify", .bool options.prettify),
    ("compilerOptions", options.compilerOptions.toJson)]

/-- The state that is read from what is written for options. -/
def written (options : CompileOptions) (extra : List (String × Json)) : Draft where
  source := some options.source
  filename := some options.filename
  transformAssetUrls := some options.transformAssetUrls
  transformAssetUrlsOptions := some options.transformAssetUrlsOptions
  isProduction := some options.isProduction
  isFunctional := some options.isFunctional
  optimizeSSR := some options.optimizeSSR
  prettify := some options.prettify
  compilerOptions := some options.compilerOptions
  extra := extra

/-- A state is finished when all nine options are there. -/
theorem finish_eq_ok_iff {draft : Draft} {options : CompileOptions} :
    draft.finish = .ok options ↔
      draft = written options draft.extra ∧ options.extra = rest draft := by
  constructor
  · intro finished
    unfold Draft.finish at finished
    simp only [bind_eq_ok_iff, required_eq_ok_iff] at finished
    obtain ⟨source, isSource, filename, isFilename, transformAssetUrls, isTransform,
      transformAssetUrlsOptions, isBase, isProduction, production, isFunctional, functional,
      optimizeSSR, optimized, prettify, pretty, compilerOptions, compiler, same⟩ := finished
    cases same
    obtain ⟨⟩ := draft
    simp only at isSource isFilename isTransform isBase
    simp only at production functional optimized pretty compiler
    subst isSource isFilename isTransform isBase production functional optimized pretty compiler
    exact ⟨rfl, rfl⟩
  · rintro ⟨same, extra⟩
    rw [same]
    obtain ⟨⟩ := options
    cases extra
    rfl

/-- What is written for options is read as these options. -/
theorem rewrites {levels : Nat} {draft : Draft} {options : CompileOptions}
    (sourced : (table levels).Sourced draft) (finished : draft.finish = .ok options) :
    Rewrites (table levels) levels rest Draft.finish toJson draft options := by
  obtain ⟨same, extra⟩ := finish_eq_ok_iff.mp finished
  rw [same] at sourced
  simp only [Table.Sourced, table, List.forall_mem_cons, written] at sourced
  obtain ⟨-, -, transformAssetUrls, transformAssetUrlsOptions, -, -, -, -, compilerOptions, -⟩ :=
    sourced
  obtain ⟨transform, plainTransform, readTransform⟩ := transformAssetUrls _ rfl
  obtain ⟨base, plainBase, readBase⟩ := transformAssetUrlsOptions _ rfl
  obtain ⟨compiler, plainCompiler, readCompiler⟩ := compilerOptions _ rfl
  have stableTransform := AssetUrlTransform.stable levels
  have stableBase := AssetUrlOptions.stable levels
  have stableCompiler := CompilerOptions.stable levels
  refine ⟨knownMembers options, draft, ?_, ⟨?_, ?_, ?_⟩, finished, rfl⟩
  · rw [← extra]
    rfl
  · simp [knownMembers, table, Table.names]
  · simp only [knownMembers, List.forall_mem_cons]
    exact ⟨fits_string levels _, fits_string levels _,
      stableTransform.fits plainTransform readTransform, stableBase.fits plainBase readBase,
      fits_bool levels _, fits_bool levels _,
      fits_bool levels _, fits_bool levels _, stableCompiler.fits plainCompiler readCompiler,
      by simp⟩
  · rw [same]
    simp only [table, List.forall_mem_cons]
    refine ⟨?_, ?_, ?_, ?_, ?_, ?_, ?_, ?_, ?_, by simp⟩ <;> simp [knownMembers]
    · exact onlyOf_single (textOf_written _)
    · exact onlyOf_single (textOf_written _)
    · exact onlyOf_single (stableTransform.again plainTransform readTransform)
    · exact onlyOf_single (stableBase.again plainBase readBase)
    · rfl
    · rfl
    · rfl
    · rfl
    · exact onlyOf_single (stableCompiler.again plainCompiler readCompiler)

theorem stable (levels : Nat) : Stable levels (meaning levels) toJson :=
  Record.stable "CompileTemplateOptions" levels record rewrites

end RenderLink.CompileOptions
