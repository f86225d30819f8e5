/-
**The options of a compilation as a text.**

Overrides that are read from plain trees hold what can be written, and so do the defaults that stand
where the overrides have nothing. The options of a compilation can then be written where the
overrides could be read, and what is written is read as the same value.

* `Overrides.rewrites_applyOverrides`: each member that is written can be read.
* `Overrides.parse_applyOverrides`: **the text of the options is parsed as what was written.**
-/

import RenderLink.Proofs.Options.Compile

namespace RenderLink

open Json

/-! ### Plain defaults -/

/-- What has been read for an option, or its default, was read from a plain tree. -/
theorem exists_plain_getD {α : Type} {meaning : Tree → Except ReadError α} {default : α}
    {stored : Option (Option α)} (sourced : ∀ found, stored = some found →
      ∃ tree : Tree, tree.PlainIntegers ∧ optionalOf meaning tree = .ok found)
    (ofDefault : ∃ tree : Tree, tree.PlainIntegers ∧ meaning tree = .ok default) :
    ∃ tree : Tree, tree.PlainIntegers ∧ meaning tree = .ok (stored.join.getD default) := by
  cases there : stored.join with
  | none => exact ofDefault
  | some value =>
    obtain ⟨tree, plain, read⟩ := sourced _ (Option.join_eq_some_iff.mp there)
    rcases optionalOf_eq_ok_iff.mp read with ⟨-, none⟩ | ⟨-, found, meant, same⟩
    · cases none
    · cases same
      exact ⟨tree, plain, meant⟩

/-- The options for asset URLs with a given base, as a list. -/
theorem exists_plain_base (levels : Nat) (base : Option String) :
    ∃ tree : Tree, tree.PlainIntegers ∧
      AssetUrlOptions.meaning (levels + 1) tree = .ok ⟨base⟩ := by
  cases base with
  | none => exact ⟨.list [], plain_of_no_number rfl, rfl⟩
  | some text =>
    refine ⟨.list [(Json.string text).tree], plain_of_no_number rfl, ?_⟩
    refine listOr_eq_ok_iff.mpr (.inl ⟨_, levels, rfl, rfl, ?_⟩)
    exact bind_eq_ok_iff.mpr ⟨some text, optionalOf_textOf_written text, rfl⟩

/-! ### Overrides in the place of defaults -/

namespace Overrides

variable {levels : Nat} {members : List (StringText × Tree)} {overrides : Overrides}

/-- The options of a compilation hold what was read from plain trees, where the overrides do. -/
theorem sourced_applyOverrides {draft : Draft} (sourced : (table (levels + 1)).Sourced draft)
    (source filename : String) (base : Option String) (isProduction isFunctional : Bool)
    (extra : List (String × Json)) :
    (CompileOptions.table (levels + 1)).Sourced (CompileOptions.written
      ((CompileOptions.defaults source filename ⟨base⟩ isProduction
        isFunctional).applyOverrides draft.finish) extra) := by
  simp only [Table.Sourced, table, List.forall_mem_cons] at sourced
  obtain ⟨asTransform, asBase, asProduction, asFunctional, asOptimized, asPretty, asCompiler, -⟩ :=
    sourced
  have asText (text : String) : ∃ tree : Tree, tree.PlainIntegers ∧ textOf tree = .ok text :=
    ⟨(Json.string text).tree, plain_of_no_number rfl, textOf_written text⟩
  have asBoolean (value : Bool) : ∃ tree : Tree, tree.PlainIntegers ∧ booleanOf tree = .ok value :=
    ⟨.bool value, plain_of_no_number rfl, rfl⟩
  simp only [Table.Sourced, CompileOptions.table, List.forall_mem_cons, CompileOptions.written,
    Option.some.injEq, forall_eq']
  refine ⟨asText source, asText filename, ?_, ?_, ?_, ?_, ?_, ?_, ?_, by simp⟩
  · exact exists_plain_getD asTransform ⟨.bool true, plain_of_no_number rfl, rfl⟩
  · exact exists_plain_getD asBase (exists_plain_base levels base)
  · exact exists_plain_getD asProduction (asBoolean isProduction)
  · exact exists_plain_getD asFunctional (asBoolean isFunctional)
  · exact exists_plain_getD asOptimized (asBoolean false)
  · exact exists_plain_getD asPretty (asBoolean false)
  · exact exists_plain_getD asCompiler ⟨.object [], plain_of_no_number rfl, rfl⟩

/-- What is written for the options of a compilation can be read where it was read. -/
theorem rewrites_applyOverrides (read : meaning (levels + 2) (.object members) = .ok overrides)
    (plain : (Tree.object members).PlainIntegers) (source filename : String) (base : Option String)
    (isProduction isFunctional : Bool) :
    IsRest (table (levels + 1)).names (levels + 1) overrides.extra ∧
      ∃ state, CompileOptions.rest state = overrides.extra ∧
        Rewrites (CompileOptions.table (levels + 1)) (levels + 1) CompileOptions.rest
          CompileOptions.Draft.finish CompileOptions.toJson state
          ((CompileOptions.defaults source filename ⟨base⟩ isProduction
            isFunctional).applyOverrides overrides) := by
  obtain ⟨final, folded, finished⟩ := bind_eq_ok_iff.mp read
  obtain rfl : final.finish = overrides := Except.ok.inj finished
  obtain ⟨sourced, isRest⟩ :=
    (record (levels + 1)).sourced folded fun member present => plain.member present
  exact ⟨isRest, _, rfl, CompileOptions.rewrites
    (sourced_applyOverrides sourced source filename base isProduction isFunctional final.extra)
    (CompileOptions.finish_eq_ok_iff.mpr ⟨rfl, rfl⟩)⟩

/-- The options of a compilation fit where the overrides did. -/
theorem fits_applyOverrides (read : meaning (levels + 2) (.object members) = .ok overrides)
    (plain : (Tree.object members).PlainIntegers) (source filename : String) (base : Option String)
    (isProduction isFunctional : Bool) :
    ((CompileOptions.defaults source filename ⟨base⟩ isProduction
      isFunctional).applyOverrides overrides).toJson.Fits (levels + 2) := by
  obtain ⟨isRest, state, kept, rewrites⟩ :=
    rewrites_applyOverrides read plain source filename base isProduction isFunctional
  exact rewrites.fits fun entry there => (isRest entry (kept ▸ there)).2.1

/-- **The text of the options of a compilation is parsed as what was written.** -/
theorem parse_applyOverrides (read : meaning nestingLimit (.object members) = .ok overrides)
    (plain : (Tree.object members).PlainIntegers) (source filename : String) (base : Option String)
    (isProduction isFunctional : Bool) :
    let options := (CompileOptions.defaults source filename ⟨base⟩ isProduction
      isFunctional).applyOverrides overrides
    Json.parse options.toJson.toText = .ok options.toJson :=
  parse_toText (fits_applyOverrides read plain source filename base isProduction isFunctional)

end Overrides

end RenderLink
