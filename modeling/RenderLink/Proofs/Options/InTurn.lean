/-
**Overrides one after the other.**

The seven options are merged field by field: each ends with the value of the last overrides that
have one for it, or with its own. The other keys are taken over as a whole: those of the last
overrides are all that is left, so a key that came earlier is lost where the last ones do not have
it.

* `own_applyAll`: each of the seven options has the last value given.
* `find?_applyAll_iff`: another key has the last value given for it only if the last overrides have
  it or no others do.
* `applyAll_lastGiven`: **what overrides one after the other leave.**
-/

import Mathlib.Data.List.Induction
import RenderLink.Options.Compile
import RenderLink.Proofs.Dictionary

namespace RenderLink.CompileOptions

variable {options : CompileOptions} {list : List Overrides} {overrides : Overrides}

/-- The options with several overrides in turn. -/
def applyAll (options : CompileOptions) (list : List Overrides) : CompileOptions :=
  list.foldl applyOverrides options

theorem applyAll_concat (options : CompileOptions) (list : List Overrides) (last : Overrides) :
    options.applyAll (list ++ [last]) = (options.applyAll list).applyOverrides last := by
  unfold applyAll
  rw [List.foldl_append]
  rfl

/-! ### The options with a field -/

/-- An option with a field of its own: its value in the options, and what overrides have for it. -/
structure Overridable where
  Value : Type
  own : CompileOptions → Value
  given : Overrides → Option Value

/-- The seven options with a field of their own. -/
def overridables : List Overridable := [
  ⟨AssetUrlTransform, transformAssetUrls, Overrides.transformAssetUrls⟩,
  ⟨AssetUrlOptions, transformAssetUrlsOptions, Overrides.transformAssetUrlsOptions⟩,
  ⟨Bool, isProduction, Overrides.isProduction⟩,
  ⟨Bool, isFunctional, Overrides.isFunctional⟩,
  ⟨Bool, optimizeSSR, Overrides.optimizeSSR⟩,
  ⟨Bool, prettify, Overrides.prettify⟩,
  ⟨CompilerOptions, compilerOptions, Overrides.compilerOptions⟩]

/-- A value that is present wins. -/
theorem own_applyOverrides : ∀ field ∈ overridables,
    field.own (options.applyOverrides overrides) =
      (field.given overrides).getD (field.own options) := by
  simp [overridables, applyOverrides]

/-- The last value that several overrides have. -/
def lastGiven {α : Type} (given : Overrides → Option α) (list : List Overrides) : Option α :=
  (list.filterMap given).getLast?

theorem lastGiven_concat {α : Type} (given : Overrides → Option α) (list : List Overrides)
    (last : Overrides) :
    lastGiven given (list ++ [last]) = (given last).or (lastGiven given list) := by
  unfold lastGiven
  rw [List.filterMap_append]
  cases there : given last with
  | none => simp [there]
  | some value => simp [there]

theorem lastGiven_eq_none_iff {α : Type} {given : Overrides → Option α} :
    lastGiven given list = none ↔ ∀ overrides ∈ list, given overrides = none := by
  unfold lastGiven
  rw [List.getLast?_eq_none_iff, List.filterMap_eq_nil_iff]

/-- **Each of the seven options** has the last value given. -/
theorem own_applyAll : ∀ field ∈ overridables,
    field.own (options.applyAll list) = (lastGiven field.given list).getD (field.own options) := by
  intro field member
  induction list using List.reverseRecOn with
  | nil => rfl
  | append_singleton list last ih =>
    rw [applyAll_concat, own_applyOverrides field member, ih, lastGiven_concat, Option.getD_or]

/-! ### The other keys -/

/-- What is left of the other keys are those of the last overrides. -/
theorem extra_applyAll : (options.applyAll list).extra =
    (list.getLast?.map Overrides.extra).getD options.extra := by
  induction list using List.reverseRecOn with
  | nil => rfl
  | append_singleton list last _ =>
    rw [applyAll_concat, List.getLast?_concat]
    rfl

/-- Another key has the last value given for it exactly if the last overrides have it or nothing has
it. -/
theorem find?_applyAll_iff {key : String} :
    (options.applyAll list).extra.find? key =
        (lastGiven (fun overrides => overrides.extra.find? key) list).or
          (options.extra.find? key) ↔
      ∀ last ∈ list.getLast?, last.extra.find? key = none →
        options.extra.find? key = none ∧
          ∀ overrides ∈ list, overrides.extra.find? key = none := by
  induction list using List.reverseRecOn with
  | nil => simp [applyAll, lastGiven]
  | append_singleton list last _ =>
    rw [extra_applyAll, lastGiven_concat, List.getLast?_concat]
    show last.extra.find? key = _ ↔ _
    cases there : last.extra.find? key with
    | some value => simp [there]
    | none =>
      -- the key is gone, so what was given for it before, or its own value, has to be none
      rw [Option.none_or, eq_comm (b := Option.or _ _), Option.or_eq_none_iff,
        lastGiven_eq_none_iff]
      simp [there, or_imp, forall_and, and_comm]

/-- Overrides without a value leave the options as they are only where there is no other key. -/
theorem applyOverrides_empty_iff : options.applyOverrides {} = options ↔ options.extra = ∅ := by
  constructor
  · intro same
    exact (congrArg extra same).symm
  · intro none
    unfold applyOverrides
    rw [← none]
    rfl

/-- Overrides that come once more change nothing. -/
theorem applyOverrides_again (options : CompileOptions) (overrides : Overrides) :
    (options.applyOverrides overrides).applyOverrides overrides =
      options.applyOverrides overrides := by
  have again {α : Type} (given : Option α) (own : α) :
      given.getD (given.getD own) = given.getD own := by
    cases given <;> rfl
  unfold applyOverrides
  simp only [again]

/-- **What overrides one after the other leave.** The template and its file stay, and each of the
seven options has the last value given; of the other keys only those of the last overrides are
left. -/
theorem applyAll_lastGiven (options : CompileOptions) (list : List Overrides) :
    (options.applyAll list).source = options.source ∧
    (options.applyAll list).filename = options.filename ∧
    (∀ field ∈ overridables, field.own (options.applyAll list) =
      (lastGiven field.given list).getD (field.own options)) ∧
    (options.applyAll list).extra = (list.getLast?.map Overrides.extra).getD options.extra ∧
    (∀ key, (options.applyAll list).extra.find? key =
        (lastGiven (fun overrides => overrides.extra.find? key) list).or
          (options.extra.find? key) ↔
      ∀ last ∈ list.getLast?, last.extra.find? key = none →
        options.extra.find? key = none ∧
          ∀ overrides ∈ list, overrides.extra.find? key = none) ∧
    (options.applyOverrides {} = options ↔ options.extra = ∅) ∧
    ∀ overrides, (options.applyOverrides overrides).applyOverrides overrides =
      options.applyOverrides overrides := by
  have template : (options.applyAll list).source = options.source ∧
      (options.applyAll list).filename = options.filename := by
    induction list using List.reverseRecOn with
    | nil => exact ⟨rfl, rfl⟩
    | append_singleton list last ih =>
      rw [applyAll_concat, applyOverrides_source, applyOverrides_filename]
      exact ih
  exact ⟨template.1, template.2, own_applyAll, extra_applyAll, fun _ => find?_applyAll_iff,
    applyOverrides_empty_iff, options.applyOverrides_again⟩

/-- Overrides with a key that is none of the seven options. -/
def withModules : Overrides := { extra := Json.dictionary [("modules", .bool true)] }

/-- **A key is lost:** overrides without any value take away what the ones before them have put
there. -/
theorem otherKey_is_lost :
    lastGiven (fun overrides => overrides.extra.find? "modules") [withModules, {}] =
        some (.bool true) ∧
      ((defaults "<p/>" "/app/A.vue" ⟨none⟩ false false).applyAll
        [withModules, {}]).extra.find? "modules" = none ∧
      ((defaults "<p/>" "/app/A.vue" ⟨none⟩ false false).applyOverrides
          withModules).applyOverrides {} ≠
        (defaults "<p/>" "/app/A.vue" ⟨none⟩ false false).applyOverrides withModules := by
  refine ⟨rfl, rfl, ?_⟩
  rw [ne_eq, applyOverrides_empty_iff]
  exact fun none => nomatch congrArg Dictionary.entries none

end RenderLink.CompileOptions
