/-
**Overrides are read again as they are written.**

The seven options are fields of a record that collects any other key. All seven are written, with
null for those without a value, and null is read as no value.

* `Overrides.stable`: **what is read is written in a form that is read as the same.**
-/

import RenderLink.Options.Overrides
import RenderLink.Proofs.Options.AssetUrls
import RenderLink.Proofs.Options.Compiler

namespace RenderLink.Overrides

open Json

/-- The seven options; any other key is collected. -/
def table (levels : Nat) : Table Draft where
  slots := [
    { name := "transformAssetUrls", Value := Option AssetUrlTransform
      get := Draft.transformAssetUrls
      set := fun draft found => { draft with transformAssetUrls := some found }
      meaning := optionalOf (AssetUrlTransform.meaning levels) },
    { name := "transformAssetUrlsOptions", Value := Option AssetUrlOptions
      get := Draft.transformAssetUrlsOptions
      set := fun draft found => { draft with transformAssetUrlsOptions := some found }
      meaning := optionalOf (AssetUrlOptions.meaning levels) },
    { name := "isProduction", Value := Option Bool, get := Draft.isProduction
      set := fun draft found => { draft with isProduction := some found }
      meaning := optionalOf booleanOf },
    { name := "isFunctional", Value := Option Bool, get := Draft.isFunctional
      set := fun draft found => { draft with isFunctional := some found }
      meaning := optionalOf booleanOf },
    { name := "optimizeSSR", Value := Option Bool, get := Draft.optimizeSSR
      set := fun draft found => { draft with optimizeSSR := some found }
      meaning := optionalOf booleanOf },
    { name := "prettify", Value := Option Bool, get := Draft.prettify
      set := fun draft found => { draft with prettify := some found }
      meaning := optionalOf booleanOf },
    { name := "compilerOptions", Value := Option CompilerOptions, get := Draft.compilerOptions
      set := fun draft found => { draft with compilerOptions := some found }
      meaning := optionalOf (CompilerOptions.meaning levels) }]
  other key tree := (kept (tree.json? levels)).map fun found draft =>
    { draft with extra := (key, found) :: draft.extra }

theorem table_lawful (levels : Nat) : (table levels).Lawful where
  get_set := by simp [table]
  apart := by simp [table, Table.Apart]
  get_other slot member key tree change known state := by
    obtain ⟨found, -, rfl⟩ := map_eq_ok_iff.mp known
    revert slot member
    simp [table]

theorem collects (levels : Nat) : (table levels).Collects levels Draft.extra where
  extra_set := by simp [table]
  other_eq key tree := ⟨_, rfl, fun _ _ => rfl⟩

theorem fieldsRead (levels : Nat) : FieldsRead (fields levels) (table levels).step := by
  refine (table_lawful levels).fieldsRead ?_ ?_
  · simp only [table, List.forall_mem_cons]
    exact ⟨⟨_, (AssetUrlTransform.reads levels).optional, fun state => by rw [fields]⟩,
      ⟨_, (AssetUrlOptions.reads levels).optional, fun state => by rw [fields]⟩,
      ⟨_, reads_boolean.optional, fun state => by rw [fields]⟩,
      ⟨_, reads_boolean.optional, fun state => by rw [fields]⟩,
      ⟨_, reads_boolean.optional, fun state => by rw [fields]⟩,
      ⟨_, reads_boolean.optional, fun state => by rw [fields]⟩,
      ⟨_, (CompilerOptions.reads levels).optional, fun state => by rw [fields]⟩, by simp⟩
  · intro key unnamed state
    simp only [table, Table.names, List.map_cons, List.map_nil, List.mem_cons, not_or] at unnamed
    refine ⟨_, ?_, Table.reads_collected levels (fun found draft =>
      { draft with extra := (key, found) :: draft.extra }) state⟩
    simp [fields, unnamed]

/-- What a state keeps besides the seven options. -/
def rest (draft : Draft) : Dictionary Json := Json.dictionary draft.extra.reverse

/-- The overrides of a tree. -/
def meaning (levels : Nat) : Tree → Except ReadError Overrides :=
  objectOf "TemplateOverrides" levels (fun inner => (table inner).step) {} fun draft =>
    .ok draft.finish

theorem reads (levels : Nat) : Reads (decoder levels) (meaning levels) :=
  reads_object "TemplateOverrides" levels fieldsRead {} _

/-- Overrides are the object that their text spells. -/
theorem meaning_of_parse {text : String} {overrides : Overrides}
    (parsed : parse text = .ok overrides) {tree : Tree} (spells : tree.Spells text) :
    meaning nestingLimit tree = .ok overrides :=
  ((reads nestingLimit).decode_eq spells).symm.trans parsed

theorem exists_members {text : String} {overrides : Overrides}
    (parsed : parse text = .ok overrides) : ∃ members, (Tree.object members).Spells text := by
  obtain ⟨tree, spells, meant⟩ := (reads nestingLimit).exists_tree parsed
  obtain ⟨members, -, -, rfl, -⟩ := objectOf_eq_ok_iff.mp meant
  exact ⟨members, spells⟩

theorem record (levels : Nat) :
    Record (table levels) levels {} rest fun draft => .ok draft.finish where
  lawful := table_lawful levels
  blank := by simp [table]
  rests := (collects levels).rests (table_lawful levels) rfl
  finish_congr agree same := by
    simp only [table, List.forall_mem_cons] at agree
    obtain ⟨transformAssetUrls, transformAssetUrlsOptions, isProduction, isFunctional, optimizeSSR,
      prettify, compilerOptions, -⟩ := agree
    unfold rest at same
    unfold Draft.finish
    rw [transformAssetUrls, transformAssetUrlsOptions, isProduction, isFunctional, optimizeSSR,
      prettify, compilerOptions, same]
  respects := by
    simp only [table, List.forall_mem_cons]
    exact ⟨(AssetUrlTransform.stable levels).respects.optional,
      (AssetUrlOptions.stable levels).respects.optional, respects_boolean.optional,
      respects_boolean.optional, respects_boolean.optional, respects_boolean.optional,
      (CompilerOptions.stable levels).respects.optional, by simp⟩

/-- The members that are written for the seven options. -/
def knownMembers (overrides : Overrides) : List (String × Json) :=
  [("transformAssetUrls", orNull (overrides.transformAssetUrls.map AssetUrlTransform.toJson)),
    ("transformAssetUrlsOptions",
      orNull (overrides.transformAssetUrlsOptions.map AssetUrlOptions.toJson)),
    ("isProduction", orNull (overrides.isProduction.map .bool)),
    ("isFunctional", orNull (overrides.isFunctional.map .bool)),
    ("optimizeSSR", orNull (overrides.optimizeSSR.map .bool)),
    ("prettify", orNull (overrides.prettify.map .bool)),
    ("compilerOptions", orNull (overrides.compilerOptions.map CompilerOptions.toJson))]

/-- The state that is read from what is written for overrides. -/
def written (overrides : Overrides) (extra : List (String × Json)) : Draft where
  transformAssetUrls := some overrides.transformAssetUrls
  transformAssetUrlsOptions := some overrides.transformAssetUrlsOptions
  isProduction := some overrides.isProduction
  isFunctional := some overrides.isFunctional
  optimizeSSR := some overrides.optimizeSSR
  prettify := some overrides.prettify
  compilerOptions := some overrides.compilerOptions
  extra := extra

/-- What is written for overrides is read as these overrides. -/
theorem rewrites {levels : Nat} {draft : Draft} (sourced : (table levels).Sourced draft) :
    Rewrites (table levels) levels rest (fun draft => .ok draft.finish) toJson draft
      draft.finish := by
  simp only [Table.Sourced, table, List.forall_mem_cons] at sourced
  obtain ⟨transformAssetUrls, transformAssetUrlsOptions, isProduction, isFunctional, optimizeSSR,
    prettify, compilerOptions, -⟩ := sourced
  have asTransform := (AssetUrlTransform.stable levels).of_stored (choiceOf_null_ne rfl)
    transformAssetUrls
  have asBase := (AssetUrlOptions.stable levels).of_stored
    (null_ne_ok (.record "AssetUrlOptions") rfl) transformAssetUrlsOptions
  have asProduction := (stable_boolean levels).of_stored (null_ne_ok .boolean rfl) isProduction
  have asFunctional := (stable_boolean levels).of_stored (null_ne_ok .boolean rfl) isFunctional
  have asOptimized := (stable_boolean levels).of_stored (null_ne_ok .boolean rfl) optimizeSSR
  have asPretty := (stable_boolean levels).of_stored (null_ne_ok .boolean rfl) prettify
  have asCompiler := (CompilerOptions.stable levels).of_stored
    (null_ne_ok (.record "CompilerOptions") rfl) compilerOptions
  refine ⟨knownMembers draft.finish, written draft.finish draft.extra, rfl, ⟨?_, ?_, ?_⟩, rfl, rfl⟩
  · simp [knownMembers, table, Table.names]
  · simp only [knownMembers, List.forall_mem_cons]
    exact ⟨asTransform.1, asBase.1, asProduction.1, asFunctional.1, asOptimized.1, asPretty.1,
      asCompiler.1, by simp⟩
  · simp only [table, List.forall_mem_cons]
    refine ⟨?_, ?_, ?_, ?_, ?_, ?_, ?_, by simp⟩ <;> simp [knownMembers]
    · exact onlyOf_single asTransform.2
    · exact onlyOf_single asBase.2
    · exact onlyOf_single asProduction.2
    · exact onlyOf_single asFunctional.2
    · exact onlyOf_single asOptimized.2
    · exact onlyOf_single asPretty.2
    · exact onlyOf_single asCompiler.2

theorem stable (levels : Nat) : Stable levels (meaning levels) toJson :=
  Record.stable "TemplateOverrides" levels record fun sourced finished =>
    Except.ok.inj finished ▸ rewrites sourced

end RenderLink.Overrides
