/-
**Which template the options name.**

The other keys of the overrides are written behind the nine options, and nothing keeps the names of
the template and its file out of them. Overrides with one of these names make it stand twice, where
a reader that takes the last one sees the caller's value; without them every key stands once, and
the options are read back as they are.

* `Overrides.lastMember?_settled`: what a reader sees that takes the last value of a key.
* `Overrides.nodup_iff`: **no key stands twice exactly when the overrides name neither the template
  nor its file.**
* `Overrides.reread_applyOverrides`, `Overrides.refused_applyOverrides`: when the options are read
  back.
* `ResolvedOptions.compileOptions_isIdentified`: all of this for the overrides of any text.
-/

import RenderLink.Proofs.Options.Handing

namespace RenderLink

open Json

/-! ### The last value of a key -/

/-- What is passed on without a default is passed on with one. -/
theorem Json.Settled.or {reading : Tree → Json → Prop} {trees : List Tree} {value : Option Json}
    (settled : Settled reading none trees value) (default : Json) :
    Settled reading (some default) trees (value.or (some default)) := by
  cases settled with
  | missing => exact .missing
  | given stands => exact .given stands

/-- The last value of a known key stands among the others, if it stands there at all. -/
theorem lastMember?_append {known : List (String × Json)} {others : Dictionary Json}
    (distinct : (known.map Prod.fst).Nodup) (key : String) :
    lastMember? key (known ++ others.entries) = (others.find? key).or (known.lookup key) := by
  unfold lastMember?
  rw [List.reverse_append, List.lookup_append,
    ← lookup_perm distinct (List.reverse_perm known).symm,
    ← lookup_perm others.nodup_keys (List.reverse_perm others.entries).symm]
  rfl

namespace Overrides

variable {levels : Nat} {members : List (StringText × Tree)} {overrides : Overrides}

/-- A reader that takes the last value of a key sees the caller's value, if there is one, in the
place of what the options have for it. -/
theorem lastMember?_settled (read : meaning (levels + 1) (.object members) = .ok overrides)
    (options : CompileOptions) {key : String} {default : Json}
    (unnamed : key ∉ (table levels).names)
    (known : options.knownMembers.lookup key = some default) :
    Settled (IsValue levels) (some default) (valuesOf key members).getLast?.toList
      (lastMember? key (options.knownMembers ++ overrides.extra.entries)) := by
  rw [lastMember?_append options.knownMembers_nodup, known]
  exact (settled_extra read unnamed).or default

/-- A key that the overrides have is kept with them. -/
theorem exists_entry (read : meaning (levels + 1) (.object members) = .ok overrides) {key : String}
    (unnamed : key ∉ (table levels).names) (there : valuesOf key members ≠ []) :
    ∃ value, (key, value) ∈ overrides.extra.entries := by
  have settled := settled_extra read unnamed
  rw [List.getLast?_eq_some_getLast there] at settled
  generalize kept : overrides.extra.find? key = found at settled
  cases settled with
  | @given _ value _ => exact ⟨value, overrides.extra.mem_entries_iff.mpr kept⟩

/-- **No key stands twice exactly when the overrides name neither the template nor its file.** -/
theorem nodup_iff (read : meaning (levels + 1) (.object members) = .ok overrides)
    (options : CompileOptions) :
    ((options.knownMembers ++ overrides.extra.entries).map Prod.fst).Nodup ↔
      valuesOf "source" members = [] ∧ valuesOf "filename" members = [] := by
  constructor
  · intro distinct
    rw [List.map_append] at distinct
    have apart := (List.nodup_append.mp distinct).2.2
    have absent : ∀ key ∈ options.knownMembers.map Prod.fst, key ∉ (table levels).names →
        valuesOf key members = [] := by
      intro key isKnown unnamed
      by_contra there
      obtain ⟨value, member⟩ := exists_entry read unnamed there
      exact apart key isKnown key (List.mem_map.mpr ⟨_, member, rfl⟩) rfl
    exact ⟨absent "source" (by simp [CompileOptions.knownMembers]) (by simp [table, Table.names]),
      absent "filename" (by simp [CompileOptions.knownMembers]) (by simp [table, Table.names])⟩
  · rintro ⟨noSource, noFilename⟩
    exact nodup_keys_append options.knownMembers_nodup (options.knownMembers_names levels)
      (keys_extra_apart read noSource noFilename)

end Overrides

/-! ### Reading the options back -/

/-- Options are read back only if what they write themselves stands once. -/
theorem CompileOptions.length_named_le_one {levels : Nat} {options found : CompileOptions}
    (read : meaning (levels + 1) options.toJson.tree = .ok found) :
    ∀ name ∈ (table levels).names,
      (named name (options.knownMembers ++ options.extra.entries)).length ≤ 1 := by
  intro name inNames
  obtain ⟨slot, member, rfl⟩ := List.mem_map.mp inNames
  obtain ⟨final, folded, -⟩ := bind_eq_ok_iff.mp read
  have only : onlyOf slot.name slot.meaning (valuesOf slot.name
      (memberTrees (options.knownMembers ++ options.extra.entries))) = .ok (slot.get final) :=
    (table_lawful levels).onlyOf_eq_get member ((record levels).blank slot member) folded
  have few : (valuesOf slot.name
      (memberTrees (options.knownMembers ++ options.extra.entries))).length ≤ 1 := by
    rcases onlyOf_eq_ok_iff.mp only with ⟨none, -⟩ | ⟨one, -, single, -⟩
    · rw [none]
      exact Nat.zero_le 1
    · rw [single]
      exact Nat.le_refl 1
  rwa [valuesOf_memberTrees, List.length_map] at few

namespace Overrides

variable {levels : Nat} {members : List (StringText × Tree)} {overrides : Overrides}

/-- **Overrides that name neither the template nor its file leave options that are read back.** -/
theorem reread_applyOverrides (read : meaning (levels + 2) (.object members) = .ok overrides)
    (plain : (Tree.object members).PlainIntegers) (noSource : valuesOf "source" members = [])
    (noFilename : valuesOf "filename" members = []) (source filename : String)
    (base : Option String) (isProduction isFunctional : Bool) :
    decode (CompileOptions.decoder (levels + 2)) ((CompileOptions.defaults source filename ⟨base⟩
        isProduction isFunctional).applyOverrides overrides).toJson.toText =
      .ok ((CompileOptions.defaults source filename ⟨base⟩ isProduction
        isFunctional).applyOverrides overrides) := by
  obtain ⟨isRest, state, kept, rewrites⟩ :=
    rewrites_applyOverrides read plain source filename base isProduction isFunctional
  have apart := keys_extra_apart read noSource noFilename
  have isRest : IsRest (CompileOptions.table (levels + 1)).names (levels + 1)
      (CompileOptions.rest state) := by
    rw [kept]
    exact fun entry there => ⟨apart entry there, (isRest entry there).2⟩
  obtain ⟨fits, meant⟩ :=
    (CompileOptions.record (levels + 1)).rewritten "CompileTemplateOptions" isRest rewrites
  rw [(CompileOptions.reads (levels + 2)).decode_eq (spells_toText fits)]
  exact meant

/-- **Overrides that name the template or its file leave options that are not read back:** the name
stands twice, as the options write it themselves. -/
theorem refused_applyOverrides (read : meaning (levels + 2) (.object members) = .ok overrides)
    (plain : (Tree.object members).PlainIntegers)
    (forged : ¬ (valuesOf "source" members = [] ∧ valuesOf "filename" members = []))
    (source filename : String) (base : Option String) (isProduction isFunctional : Bool)
    (found : CompileOptions) :
    decode (CompileOptions.decoder (levels + 2)) ((CompileOptions.defaults source filename ⟨base⟩
      isProduction isFunctional).applyOverrides overrides).toJson.toText ≠ .ok found := by
  have fits := fits_applyOverrides read plain source filename base isProduction isFunctional
  intro decoded
  rw [(CompileOptions.reads (levels + 2)).decode_eq (spells_toText fits)] at decoded
  have once := CompileOptions.length_named_le_one decoded
  have absent {key : String} {known : Json} (unnamed : key ∉ (table (levels + 1)).names)
      (isKnown : (key, known) ∈ ((CompileOptions.defaults source filename ⟨base⟩ isProduction
        isFunctional).applyOverrides overrides).knownMembers) : valuesOf key members = [] := by
    by_contra there
    obtain ⟨value, entry⟩ := exists_entry read unnamed there
    have few := once key (CompileOptions.knownMembers_names _ _ _ isKnown)
    rw [named_append, List.length_append] at few
    have first := List.length_pos_of_mem (mem_named.mpr isKnown)
    have second := List.length_pos_of_mem (mem_named.mpr entry)
    exact absurd few (Nat.not_le.mpr (Nat.add_le_add first second))
  exact forged ⟨absent (by simp [table, Table.names]) List.mem_cons_self,
    absent (by simp [table, Table.names]) (List.mem_cons_of_mem _ List.mem_cons_self)⟩

end Overrides

/-! ### The options of a compilation -/

/-- How the options of a compilation name the template and its file: each key stands once exactly
when the caller names neither; a reader that takes the last value of a key sees the caller's value
where there is one; and only where there is none are the options read back. -/
structure IsIdentified (members : List (StringText × Tree)) (source filename : String)
    (options : CompileOptions) (handed : List (String × Json)) : Prop where
  nodup_iff : (handed.map Prod.fst).Nodup ↔
    valuesOf "source" members = [] ∧ valuesOf "filename" members = []
  source : Settled (IsValue (nestingLimit - 1)) (some (.string source))
    (valuesOf "source" members).getLast?.toList (lastMember? "source" handed)
  filename : Settled (IsValue (nestingLimit - 1)) (some (.string filename))
    (valuesOf "filename" members).getLast?.toList (lastMember? "filename" handed)
  parsed : (Tree.object members).PlainIntegers →
    parse (Json.object handed).toText = .ok (.object handed)
  reread : (Tree.object members).PlainIntegers →
    valuesOf "source" members = [] ∧ valuesOf "filename" members = [] →
      decode (CompileOptions.decoder nestingLimit) (Json.object handed).toText = .ok options
  refused : (Tree.object members).PlainIntegers →
    ¬ (valuesOf "source" members = [] ∧ valuesOf "filename" members = []) → ∀ found,
      decode (CompileOptions.decoder nestingLimit) (Json.object handed).toText ≠ .ok found

/-- **How the options of a compilation name the template and its file**, for the overrides of any
text. -/
theorem ResolvedOptions.compileOptions_isIdentified (text : String) (options : ResolvedOptions)
    (parsed : Overrides.parse text = .ok options.overrides) :
    (∃ members, (Tree.object members).Spells text) ∧
      ∀ members, (Tree.object members).Spells text →
        ∀ (source : String) (block : TemplateBlock) (file : Path),
          ∃ handed, (options.compileOptions source block file).toJson = .object handed ∧
            IsIdentified members source file.display (options.compileOptions source block file)
              handed := by
  refine ⟨Overrides.exists_members parsed, ?_⟩
  intro members spells source block file
  have meant := Overrides.meaning_of_parse parsed spells
  refine ⟨_, rfl, Overrides.nodup_iff meant _,
    Overrides.lastMember?_settled meant _ (by simp [Overrides.table, Table.names]) rfl,
    Overrides.lastMember?_settled meant _ (by simp [Overrides.table, Table.names]) rfl,
    fun plain => ?_, fun plain unnamed => ?_, fun plain named found => ?_⟩
  · exact Overrides.parse_applyOverrides meant plain source file.display _ _ _
  · obtain ⟨noSource, noFilename⟩ := unnamed
    exact Overrides.reread_applyOverrides meant plain noSource noFilename source file.display _ _ _
  · exact Overrides.refused_applyOverrides meant plain named source file.display _ _ _ found

/-- Overrides that name the template. -/
def forgingText : Json := .object [("source", .string "evil")]

/-- The overrides that are read from them. -/
def forging : Overrides := { extra := dictionary [("source", .string "evil")] }

theorem forgingText_fits : forgingText.Fits nestingLimit := by
  simp [forgingText, nestingLimit, Fits]

theorem parse_forgingText : Overrides.parse forgingText.toText = .ok forging := by
  unfold Overrides.parse
  rw [(Overrides.reads nestingLimit).decode_eq (spells_toText forgingText_fits)]
  show (readMembers (Overrides.table 126).step {} (memberTrees _) >>= _) = _
  rw [readMembers_memberTrees_cons]
  rw [Table.step_other (by simp [Overrides.table])]
  show (((kept ((Json.string "evil").tree.json? 126)).map _).map _ >>= _) >>= _ = _
  rw [json?_tree (fits_string 126 "evil")]
  rfl

/-- The options of a compilation with these overrides. -/
theorem compileOptions_of_forging :
    ∃ handed, (ResolvedOptions.compileOptions { root := ⟨[47]⟩, overrides := forging } "<p/>" {}
        ⟨[47, 65]⟩).toJson = .object handed ∧
      IsIdentified (memberTrees [("source", .string "evil")]) "<p/>" (Path.display ⟨[47, 65]⟩)
        (ResolvedOptions.compileOptions { root := ⟨[47]⟩, overrides := forging } "<p/>" {}
          ⟨[47, 65]⟩) handed :=
  (ResolvedOptions.compileOptions_isIdentified forgingText.toText
    { root := ⟨[47]⟩, overrides := forging } parse_forgingText).2 _ (spells_toText forgingText_fits)
    "<p/>" {} ⟨[47, 65]⟩

/-- **Overrides can name the template:** it stands twice among the options, a reader that takes the
last value of a key sees the caller's text in its place, and the options are not read back. -/
theorem source_is_forged :
    Overrides.parse forgingText.toText = .ok forging ∧
      ∀ (options : ResolvedOptions) (source : String) (block : TemplateBlock) (file : Path),
        options.overrides = forging →
          ∃ handed, (options.compileOptions source block file).toJson = .object handed ∧
            ¬ (handed.map Prod.fst).Nodup ∧
            lastMember? "source" handed = some (.string "evil") ∧
            ∀ found, decode (CompileOptions.decoder nestingLimit) (Json.object handed).toText ≠
              .ok found := by
  refine ⟨parse_forgingText, fun options source block file overridden => ?_⟩
  have meant := Overrides.meaning_of_parse parse_forgingText (spells_toText forgingText_fits)
  have named : ¬ (valuesOf "source" (memberTrees [("source", .string "evil")]) = [] ∧
      valuesOf "filename" (memberTrees [("source", .string "evil")]) = []) := by
    simp [valuesOf_memberTrees]
  refine ⟨_, rfl, ?_, ?_, ?_⟩
  · unfold ResolvedOptions.compileOptions
    rw [overridden]
    exact fun distinct => named ((Overrides.nodup_iff meant _).mp distinct)
  · unfold ResolvedOptions.compileOptions
    rw [overridden]
    exact lastMember?_append (CompileOptions.knownMembers_nodup _) "source"
  · unfold ResolvedOptions.compileOptions
    rw [overridden]
    exact Overrides.refused_applyOverrides meant (plain_of_no_number rfl) named _ _ _ _ _

end RenderLink
