/-
**Reading, writing and reading again.**

A value that is read from a text of plain integers is written in a form that is read as the same
value, and the order of keys in the text does not matter (`Stable`). For a record this comes down to
its fields: the written members of a value are read into a state that is finished to the same value,
though it need not be the state that the value came from (`Record.rewritten`).

* `Stable.isStable`: **what a decoder reads is written in a form that it reads as the same.**
* `stable_boolean`, `stable_text`, `stable_pair`, `stable_choice`, `Stable.optional`: single values.
* `Record.stable`, `Record.stable_or_list`: records, with or without a list form.
-/

import RenderLink.Proofs.Json.Rearrangement
import RenderLink.Proofs.Json.Writing

namespace RenderLink.Json

variable {α β σ : Type}

/-! ### Stable decoders -/

/-- A value is read again from what is written for it, whatever the order of keys it was read
from. -/
structure Stable (levels : Nat) (meaning : Tree → Except ReadError α) (toJson : α → Json) :
    Prop where
  respects : Respects meaning
  fits : ∀ {tree : Tree} {value : α}, tree.PlainIntegers → meaning tree = .ok value →
    (toJson value).Fits levels
  again : ∀ {tree : Tree} {value : α}, tree.PlainIntegers → meaning tree = .ok value →
    meaning (toJson value).tree = .ok value

/-- What is read from a text whose numbers are plain integers is written in a text that is read as
the same, and so is every text that differs by the order of keys or by space. -/
structure IsStable (decoder : Decoder α) (toJson : α → Json) : Prop where
  spelled : ∀ {source : String} {value : α}, decode decoder source = .ok value →
    ∃ tree : Tree, tree.Spells source
  again : ∀ {source : String} {value : α} {tree : Tree}, decode decoder source = .ok value →
    tree.Spells source → tree.PlainIntegers → decode decoder (toJson value).toText = .ok value
  rearranged : ∀ {source other : String} {value : α} {tree rearrangedTree : Tree},
    decode decoder source = .ok value → tree.Spells source → Rearranged tree rearrangedTree →
      rearrangedTree.Spells other → decode decoder other = .ok value

/-- **What a decoder reads is written in a form that it reads as the same.** -/
theorem Stable.isStable {levels : Nat} {decoder : Decoder α} {meaning : Tree → Except ReadError α}
    {toJson : α → Json} (stable : Stable levels meaning toJson) (reads : Reads decoder meaning) :
    IsStable decoder toJson where
  spelled decoded := by
    obtain ⟨tree, spells, -⟩ := reads.exists_tree decoded
    exact ⟨tree, spells⟩
  again decoded spells plain := by
    have meant := (reads.decode_eq spells).symm.trans decoded
    rw [reads.decode_eq (spells_toText (stable.fits plain meant))]
    exact stable.again plain meant
  rearranged decoded spells rearranged alsoSpells := by
    have meant := (reads.decode_eq spells).symm.trans decoded
    rw [reads.decode_eq alsoSpells]
    exact stable.respects rearranged meant

/-! ### Single values -/

theorem fits_bool (levels : Nat) (value : Bool) : (Json.bool value).Fits levels := by
  cases levels <;> trivial

theorem fits_string (levels : Nat) (text : String) : (Json.string text).Fits levels := by
  cases levels <;> trivial

theorem stable_boolean (levels : Nat) : Stable levels booleanOf .bool where
  respects := respects_boolean
  fits _ _ := fits_bool levels _
  again _ _ := rfl

theorem textOf_written (text : String) : textOf (Json.string text).tree = .ok text := by
  rw [tree, textOf, StringText.value?_ofText, kept_some]

theorem optionalOf_textOf_written (text : String) :
    optionalOf textOf (Json.string text).tree = .ok (some text) := by
  show (textOf (Json.string text).tree).map some = .ok (some text)
  rw [textOf_written]
  rfl

theorem stable_text (levels : Nat) : Stable levels textOf .string where
  respects := respects_text
  fits _ _ := fits_string levels _
  again _ _ := textOf_written _

/-- Null or a stable value, if null is no such value itself. -/
theorem Stable.optional {levels : Nat} {meaning : Tree → Except ReadError α} {toJson : α → Json}
    (stable : Stable levels meaning toJson) (refusesNull : ∀ value, meaning .null ≠ .ok value) :
    Stable levels (optionalOf meaning) fun value => orNull (value.map toJson) where
  respects := stable.respects.optional
  fits {tree value} plain read := by
    rcases optionalOf_eq_ok_iff.mp read with ⟨-, rfl⟩ | ⟨-, found, meant, rfl⟩
    · cases levels <;> trivial
    · exact stable.fits plain meant
  again {tree value} plain read := by
    rcases optionalOf_eq_ok_iff.mp read with ⟨-, rfl⟩ | ⟨-, found, meant, rfl⟩
    · rfl
    · have written := stable.again plain meant
      refine optionalOf_eq_ok_iff.mpr (.inr ⟨fun isNull => ?_, found, written, rfl⟩)
      exact refusesNull found (isNull ▸ written)

theorem stable_pair (levels : Nat) :
    Stable levels (pairOf levels) fun pair => .list [.string pair.1, .string pair.2] where
  respects := respects_pair levels
  fits {tree value} _ read := by
    rcases listOr_eq_ok_iff.mp read with ⟨trees, inner, rfl, rfl, -⟩ | ⟨-, mismatch⟩
    · intro item member
      rcases List.mem_pair.mp member with rfl | rfl <;> exact fits_string inner _
    · exact absurd mismatch mismatched_ne_ok
  again {tree value} _ read := by
    rcases listOr_eq_ok_iff.mp read with ⟨trees, inner, rfl, rfl, -⟩ | ⟨-, mismatch⟩
    · refine listOr_eq_ok_iff.mpr (.inl ⟨_, inner, rfl, rfl, ?_⟩)
      refine bind_eq_ok_iff.mpr ⟨value.1, textOf_written _, ?_⟩
      exact bind_eq_ok_iff.mpr ⟨value.2, textOf_written _, rfl⟩
    · exact absurd mismatch mismatched_ne_ok

/-- A choice whose value is written as it was read, but in order. -/
theorem stable_choice (name : String) (levels : Nat) {shape? : Json → Option α} {toJson : α → Json}
    (sameShape : ∀ {value other : Json} {found : α}, Alike value other →
      shape? value = some found → shape? other = some found)
    (written : ∀ {value : Json} {found : α}, shape? value = some found →
      toJson found = value.tidy ∧ shape? value.tidy = some found) :
    Stable levels (choiceOf name levels shape?) toJson := by
  refine ⟨respects_choice name levels sameShape, fun plain read => ?_, fun plain read => ?_⟩
  · obtain ⟨found, known, shaped⟩ := choiceOf_eq_ok_iff.mp read
    rw [(written shaped).1]
    exact (fits_of_json? plain known).tidy
  · obtain ⟨found, known, shaped⟩ := choiceOf_eq_ok_iff.mp read
    obtain ⟨isTidy, alsoShaped⟩ := written shaped
    rw [isTidy]
    exact choiceOf_eq_ok_iff.mpr ⟨_, json?_tree (fits_of_json? plain known).tidy, alsoShaped⟩

/-- What a field holds was read from one of its trees. -/
theorem exists_plain_of_onlyOf {name : String} {meaning : Tree → Except ReadError α}
    {trees : List Tree} {found : α} (plain : ∀ tree ∈ trees, tree.PlainIntegers)
    (only : onlyOf name meaning trees = .ok (some found)) :
    ∃ tree : Tree, tree.PlainIntegers ∧ meaning tree = .ok found := by
  obtain ⟨-, none⟩ | ⟨tree, value, rfl, meant, same⟩ := onlyOf_eq_ok_iff.mp only
  · cases none
  · cases same
    exact ⟨tree, plain tree (List.mem_singleton.mpr rfl), meant⟩

/-- What stands at a place of a list of plain trees is plain. -/
theorem plain_of_place {items : List Tree} (plain : ∀ tree ∈ items, tree.PlainIntegers)
    (place : Nat) : ∀ tree ∈ items[place]?.toList, tree.PlainIntegers :=
  fun tree there => plain tree (List.mem_of_getElem? (Option.mem_toList.mp there))

/-- Null is refused where it is of the wrong type. -/
theorem null_ne_ok {meaning : Tree → Except ReadError α} (expected : Expected)
    (wrong : meaning .null = mismatched expected .null) (value : α) : meaning .null ≠ .ok value :=
  fun read => mismatched_ne_ok (wrong.symm.trans read)

/-- Null is not of a shape that does not include it. -/
theorem choiceOf_null_ne {name : String} {levels : Nat} {shape? : Json → Option α}
    (none : shape? .null = none) : ∀ value, choiceOf name levels shape? .null ≠ .ok value := by
  intro value read
  obtain ⟨found, known, shaped⟩ := choiceOf_eq_ok_iff.mp read
  obtain rfl : Json.null = found := by cases levels <;> exact Option.some.inj known
  rw [none] at shaped
  cases shaped

/-- A written field that may be left out. -/
theorem onlyOf_written {name : String} {meaning : Tree → Except ReadError β} {toJson : α → Json}
    {stored : α → β} {found : Option α}
    (again : ∀ value, found = some value → meaning (toJson value).tree = .ok (stored value)) :
    onlyOf name meaning ((found.map toJson).toList.map tree) = .ok (found.map stored) := by
  cases found with
  | none => rfl
  | some value =>
    show (meaning (toJson value).tree).map some = .ok (some (stored value))
    rw [again value rfl]
    rfl

/-- A value that was read for a field, where null is the same as no value. -/
theorem Stable.of_join {levels : Nat} {meaning : Tree → Except ReadError α} {toJson : α → Json}
    (stable : Stable levels meaning toJson) (refusesNull : ∀ value, meaning .null ≠ .ok value)
    {stored : Option (Option α)} (sourced : ∀ found, stored = some found →
      ∃ tree : Tree, tree.PlainIntegers ∧ optionalOf meaning tree = .ok found) (value : α)
    (there : stored.join = some value) :
    (toJson value).Fits levels ∧ optionalOf meaning (toJson value).tree = .ok (some value) := by
  obtain ⟨tree, plain, read⟩ := sourced _ (Option.join_eq_some_iff.mp there)
  have optional := stable.optional refusesNull
  exact ⟨optional.fits plain read, optional.again plain read⟩

/-- What was read for a field, null or not, and is written as null if there is nothing. -/
theorem Stable.of_stored {levels : Nat} {meaning : Tree → Except ReadError α} {toJson : α → Json}
    (stable : Stable levels meaning toJson) (refusesNull : ∀ value, meaning .null ≠ .ok value)
    {stored : Option (Option α)} (sourced : ∀ found, stored = some found →
      ∃ tree : Tree, tree.PlainIntegers ∧ optionalOf meaning tree = .ok found) :
    (orNull (stored.join.map toJson)).Fits levels ∧
      optionalOf meaning (orNull (stored.join.map toJson)).tree = .ok stored.join := by
  cases stored with
  | none => exact ⟨by cases levels <;> trivial, rfl⟩
  | some found =>
    obtain ⟨tree, plain, read⟩ := sourced found rfl
    have optional := stable.optional refusesNull
    exact ⟨optional.fits plain read, optional.again plain read⟩

/-- A written field that is always there. -/
theorem onlyOf_single {name : String} {meaning : Tree → Except ReadError α} {value : Json}
    {found : α} (again : meaning value.tree = .ok found) :
    onlyOf name meaning [value.tree] = .ok (some found) := by
  rw [onlyOf, again]
  rfl

/-! ### What a record keeps besides its fields -/

/-- Keys of their own with tidy values, which can be written and read back. -/
def IsRest (names : List String) (levels : Nat) (rest : Dictionary Json) : Prop :=
  ∀ entry ∈ rest.entries, entry.1 ∉ names ∧ entry.2.Fits levels ∧ entry.2.tidy = entry.2

namespace Table

/-- Every other key can be read. -/
def Takes (table : Table σ) (members : List (StringText × Tree)) : Prop :=
  ∀ member ∈ othersOf table.names members, ∃ change, table.other member.1 member.2 = .ok change

/-- What a state keeps besides its fields does not depend on the order of keys, and it is read again
as it is written. -/
structure Rests (table : Table σ) (levels : Nat) (start : σ) (rest : σ → Dictionary Json) :
    Prop where
  rearranged : ∀ {members others : List (StringText × Tree)} {final : σ},
    readMembers table.step start members = .ok final → RearrangedMembers members others →
      table.Takes others ∧
        ∀ {found}, readMembers table.step start others = .ok found → rest found = rest final
  plain : ∀ {members : List (StringText × Tree)} {final : σ},
    readMembers table.step start members = .ok final →
      (∀ member ∈ members, member.2.PlainIntegers) → IsRest table.names levels (rest final)
  written : ∀ {state : σ} {fields : List (String × Json)},
    IsRest table.names levels (rest state) → (∀ member ∈ fields, member.1 ∈ table.names) →
      table.Takes (memberTrees (fields ++ (rest state).entries)) ∧
        ∀ {found}, readMembers table.step start (memberTrees (fields ++ (rest state).entries)) =
          .ok found → rest found = rest state

variable {table : Table σ} {levels : Nat} {start : σ}

/-- A record that passes over other keys keeps nothing. -/
theorem rests_of_skips (skips : ∀ key tree, table.other key tree = .ok id) :
    table.Rests levels start fun _ => ∅ where
  rearranged _ _ := ⟨fun _ _ => ⟨id, skips _ _⟩, fun _ => rfl⟩
  plain _ _ := fun _ absent => absurd absent List.not_mem_nil
  written _ _ := ⟨fun _ _ => ⟨id, skips _ _⟩, fun _ => rfl⟩

/-- The other keys of a member are those that name no field. -/
theorem mem_othersOf {names : List String} {members : List (StringText × Tree)}
    {other : String × Tree} :
    other ∈ othersOf names members ↔
      other.1 ∉ names ∧
        ∃ member ∈ members, member.1.value? = some other.1 ∧ member.2 = other.2 := by
  constructor
  · intro present
    obtain ⟨member, inside, found⟩ := List.mem_filterMap.mp present
    obtain ⟨key, known, kept⟩ := Option.bind_eq_some_iff.mp found
    split at kept
    · cases kept
    · next unnamed =>
      cases kept
      exact ⟨unnamed, member, inside, known, rfl⟩
  · rintro ⟨unnamed, member, inside, known, same⟩
    refine List.mem_filterMap.mpr ⟨member, inside, ?_⟩
    rw [known, Option.bind_some, if_neg unnamed, same]

/-- Other keys that are collected can be read when they have a value. -/
theorem Collects.takes {extra : σ → List (String × Json)} (collects : table.Collects levels extra)
    {members : List (StringText × Tree)}
    (readable : ∀ member ∈ othersOf table.names members,
      ∃ found, member.2.json? levels = some found) : table.Takes members := by
  intro member present
  obtain ⟨found, read⟩ := readable member present
  obtain ⟨change, changed, -⟩ := collects.other_eq member.1 member.2
  exact ⟨change found, by rw [changed, read]; rfl⟩

/-- What has been collected after the members. -/
theorem Collects.dictionary_eq {extra : σ → List (String × Json)}
    (collects : table.Collects levels extra) (lawful : table.Lawful) (blank : extra start = [])
    {members : List (StringText × Tree)} {final : σ}
    (read : readMembers table.step start members = .ok final) :
    dictionary (extra final).reverse =
      dictionary (collected levels (othersOf table.names members)) := by
  rw [(collects.extra_readMembers lawful read).2, blank, List.append_nil, List.reverse_reverse]

/-- A record that collects other keys keeps their dictionary. -/
theorem Collects.rests {extra : σ → List (String × Json)} (collects : table.Collects levels extra)
    (lawful : table.Lawful) (blank : extra start = []) :
    table.Rests levels start fun state => dictionary (extra state).reverse where
  rearranged {members others final} read rearranged := by
    obtain ⟨readable, same⟩ :=
      rearranged.collected table.names (collects.extra_readMembers lawful read).1
    refine ⟨collects.takes readable, fun alsoRead => ?_⟩
    rw [collects.dictionary_eq lawful blank alsoRead, collects.dictionary_eq lawful blank read]
    exact (Dictionary.ofList_eq_of_samePairs same).symm
  plain {members final} read plain := by
    intro entry present
    rw [collects.dictionary_eq lawful blank read] at present
    obtain ⟨found, inside, same⟩ := exists_of_mem_dictionary present
    obtain ⟨other, otherPresent, valued⟩ := List.mem_filterMap.mp inside
    obtain ⟨value, known, pair⟩ := Option.map_eq_some_iff.mp valued
    obtain ⟨unnamed, member, memberPresent, -, sameTree⟩ := mem_othersOf.mp otherPresent
    have sameKey : entry.1 = other.1 := (congrArg Prod.fst pair).symm
    have sameValue : found = value := (congrArg Prod.snd pair).symm
    rw [same, sameKey, sameValue]
    refine ⟨unnamed, ?_, tidy_tidy _⟩
    exact (fits_of_json? (sameTree ▸ plain member memberPresent) known).tidy
  written {state fields} isRest names := by
    generalize dictionary (extra state).reverse = kept at isRest
    have others : othersOf table.names (memberTrees (fields ++ kept.entries)) =
        kept.entries.map fun member => (member.1, member.2.tree) := by
      have unnamed : ∀ member ∈ fields, ¬ (decide (member.1 ∉ table.names)) = true := by
        simpa using names
      have apart : ∀ member ∈ kept.entries, decide (member.1 ∉ table.names) = true := by
        simpa using fun key value present => (isRest (key, value) present).1
      rw [othersOf_memberTrees, List.filter_append, List.filter_eq_nil_iff.mpr unnamed,
        List.filter_eq_self.mpr apart, List.nil_append]
    refine ⟨collects.takes ?_, fun read => ?_⟩
    · rw [others]
      intro member present
      obtain ⟨entry, inside, rfl⟩ := List.mem_map.mp present
      exact ⟨entry.2, json?_tree (isRest entry inside).2.1⟩
    · rw [collects.dictionary_eq lawful blank read, others,
        collected_trees fun entry present => (isRest entry present).2.1,
        dictionary_entries fun entry present => (isRest entry present).2.2]

/-! ### Records -/

/-- Every field of a state holds what was read from a tree of plain integers. -/
def Sourced (table : Table σ) (state : σ) : Prop :=
  ∀ slot ∈ table.slots, ∀ found, slot.get state = some found →
    ∃ tree : Tree, tree.PlainIntegers ∧ slot.meaning tree = .ok found

/-- Members that are written for the fields of a state. -/
structure Writes (table : Table σ) (levels : Nat) (fields : List (String × Json)) (state : σ) :
    Prop where
  names : ∀ member ∈ fields, member.1 ∈ table.names
  fits : ∀ member ∈ fields, member.2.Fits levels
  values : ∀ slot ∈ table.slots,
    onlyOf slot.name slot.meaning ((named slot.name fields).map tree) = .ok (slot.get state)

/-- Members whose fields hold what a state holds are read into a state with the same fields. -/
theorem Lawful.exists_agreeing (lawful : table.Lawful)
    (blank : ∀ slot ∈ table.slots, slot.get start = none) {members : List (StringText × Tree)}
    {state : σ} (keys : ∀ member ∈ members, ∃ key, member.1.value? = some key)
    (takes : table.Takes members)
    (fields : ∀ slot ∈ table.slots,
      onlyOf slot.name slot.meaning (valuesOf slot.name members) = .ok (slot.get state)) :
    ∃ final, readMembers table.step start members = .ok final ∧
      ∀ slot ∈ table.slots, slot.get final = slot.get state := by
  obtain ⟨final, read⟩ : ∃ final, readMembers table.step start members = .ok final :=
    lawful.exists_readMembers keys
    (fun slot member => .inl ⟨blank slot member, _, fields slot member⟩)
    (fun member present key known unnamed => takes (key, member.2) (mem_othersOf.mpr
      ⟨fun inNames => by
        obtain ⟨slot, slotMember, same⟩ := List.mem_map.mp inNames
        exact unnamed slot slotMember same, member, present, known, rfl⟩))
  refine ⟨final, read, fun slot member => ?_⟩
  have after := lawful.onlyOf_eq_get member (blank slot member) read
  rw [fields slot member] at after
  exact (Except.ok.inj after).symm

end Table

/-- A record: its fields, what it keeps besides, and how a state is finished, which depends on these
alone. -/
structure Record (table : Table σ) (levels : Nat) (start : σ) (rest : σ → Dictionary Json)
    (finish : σ → Except ReadError α) : Prop where
  lawful : table.Lawful
  blank : ∀ slot ∈ table.slots, slot.get start = none
  rests : table.Rests levels start rest
  finish_congr : ∀ {first second : σ},
    (∀ slot ∈ table.slots, slot.get first = slot.get second) → rest first = rest second →
      finish first = finish second
  respects : ∀ slot ∈ table.slots, Respects slot.meaning

namespace Record

variable {levels : Nat} {start : σ} {rest : σ → Dictionary Json} {finish : σ → Except ReadError α}

/-- **Rearranged members are finished to the same value.** -/
theorem rearranged {table : Table σ} (record : Record table levels start rest finish)
    {members others : List (StringText × Tree)} {final : σ}
    (read : readMembers table.step start members = .ok final)
    (rearranged : RearrangedMembers members others) :
    ∃ found, readMembers table.step start others = .ok found ∧ finish found = finish final := by
  obtain ⟨takes, restRead⟩ := record.rests.rearranged read rearranged
  have fields : ∀ slot ∈ table.slots,
      onlyOf slot.name slot.meaning (valuesOf slot.name others) = .ok (slot.get final) :=
    fun slot member => (record.respects slot member).onlyOf (rearranged.valuesOf slot.name)
      (record.lawful.onlyOf_eq_get member (record.blank slot member) read)
  obtain ⟨found, alsoRead, agree⟩ := record.lawful.exists_agreeing record.blank
    (rearranged.keys (Table.keys_of_readMembers read)) takes fields
  exact ⟨found, alsoRead, record.finish_congr agree (restRead alsoRead)⟩

/-- Plain members are read into a state of what was read from plain trees. -/
theorem sourced {table : Table σ} (record : Record table levels start rest finish)
    {members : List (StringText × Tree)} {final : σ}
    (read : readMembers table.step start members = .ok final)
    (plain : ∀ member ∈ members, member.2.PlainIntegers) :
    table.Sourced final ∧ IsRest table.names levels (rest final) := by
  refine ⟨fun slot slotMember found stored => ?_, record.rests.plain read plain⟩
  have only := record.lawful.onlyOf_eq_get slotMember (record.blank slot slotMember) read
  rw [stored] at only
  refine exists_plain_of_onlyOf (fun tree present => ?_) only
  obtain ⟨member, inside, -, sameTree⟩ := mem_valuesOf.mp present
  exact sameTree ▸ plain member inside

/-- **What is written for a state is read again.** -/
theorem reread {table : Table σ} (record : Record table levels start rest finish)
    {state goal : σ} {fields : List (String × Json)}
    (isRest : IsRest table.names levels (rest state)) (writes : table.Writes levels fields goal)
    (sameRest : rest goal = rest state) :
    ∃ final, readMembers table.step start (memberTrees (fields ++ (rest state).entries)) =
      .ok final ∧ finish final = finish goal := by
  obtain ⟨takes, restRead⟩ := record.rests.written isRest writes.names
  have values : ∀ slot ∈ table.slots, onlyOf slot.name slot.meaning
      (valuesOf slot.name (memberTrees (fields ++ (rest state).entries))) =
        .ok (slot.get goal) := by
    intro slot member
    have absent : named slot.name (rest state).entries = [] :=
      named_eq_nil fun entry present same => (isRest entry present).1
        (List.mem_map.mpr ⟨slot, member, same.symm⟩)
    rw [valuesOf_memberTrees, named_append, absent, List.append_nil]
    exact writes.values slot member
  obtain ⟨final, read, agree⟩ := record.lawful.exists_agreeing record.blank
    (keys_of_memberTrees _) takes values
  exact ⟨final, read, record.finish_congr agree ((restRead read).trans sameRest.symm)⟩

end Record

/-- What is written for the value of a state. -/
structure Rewrites (table : Table σ) (levels : Nat) (rest : σ → Dictionary Json)
    (finish : σ → Except ReadError α) (toJson : α → Json) (state : σ) (value : α) : Prop where
  exists_fields : ∃ fields goal, toJson value = .object (fields ++ (rest state).entries) ∧
    table.Writes levels fields goal ∧ finish goal = .ok value ∧ rest goal = rest state

/-- What is written can be written, whether or not the keys besides the fields are apart. -/
theorem Rewrites.fits {table : Table σ} {levels : Nat} {rest : σ → Dictionary Json}
    {finish : σ → Except ReadError α} {toJson : α → Json} {state : σ} {value : α}
    (rewrites : Rewrites table levels rest finish toJson state value)
    (restFits : ∀ entry ∈ (rest state).entries, entry.2.Fits levels) :
    (toJson value).Fits (levels + 1) := by
  obtain ⟨fields, goal, shape, writes, -⟩ := rewrites
  rw [shape]
  intro member present
  rcases List.mem_append.mp present with inFields | inRest
  · exact writes.fits member inFields
  · exact restFits member inRest

namespace Record

variable {table : Nat → Table σ} {start : σ} {rest : σ → Dictionary Json}
  {finish : σ → Except ReadError α} {toJson : α → Json}

theorem respects_object (name : String) (levels : Nat)
    (record : ∀ inner, Record (table inner) inner start rest finish) :
    Respects (objectOf name levels (fun inner => (table inner).step) start finish) := by
  intro tree other value rearranged read
  obtain ⟨members, inner, final, rfl, rfl, folded, finished⟩ := objectOf_eq_ok_iff.mp read
  obtain ⟨others, rfl, moved⟩ := rearranged.object_cases
  obtain ⟨found, alsoFolded, same⟩ := (record inner).rearranged folded moved
  exact objectOf_eq_ok_iff.mpr
    ⟨others, inner, found, rfl, rfl, alsoFolded, same.trans finished⟩

/-- **The written form of a record is read as the record.** -/
theorem rewritten (name : String) {inner : Nat}
    (record : Record (table inner) inner start rest finish) {state : σ} {value : α}
    (isRest : IsRest (table inner).names inner (rest state))
    (rewrites : Rewrites (table inner) inner rest finish toJson state value) :
    (toJson value).Fits (inner + 1) ∧
      objectOf name (inner + 1) (fun inner => (table inner).step) start finish
        (toJson value).tree = .ok value := by
  refine ⟨rewrites.fits fun entry present => (isRest entry present).2.1, ?_⟩
  obtain ⟨fields, goal, shape, writes, finished, sameRest⟩ := rewrites
  rw [shape]
  obtain ⟨final, read, same⟩ := record.reread isRest writes sameRest
  exact objectOf_eq_ok_iff.mpr ⟨_, inner, final, rfl, rfl, read, same.trans finished⟩

/-- A record that is written as an object. -/
theorem stable (name : String) (levels : Nat)
    (record : ∀ inner, Record (table inner) inner start rest finish)
    (rewrites : ∀ {inner : Nat} {state : σ} {value : α}, (table inner).Sourced state →
      finish state = .ok value → Rewrites (table inner) inner rest finish toJson state value) :
    Stable levels (objectOf name levels (fun inner => (table inner).step) start finish) toJson := by
  have written : ∀ {tree : Tree} {value : α}, tree.PlainIntegers →
      objectOf name levels (fun inner => (table inner).step) start finish tree = .ok value →
        (toJson value).Fits levels ∧
          objectOf name levels (fun inner => (table inner).step) start finish
            (toJson value).tree = .ok value := by
    intro tree value plain read
    obtain ⟨members, inner, final, rfl, rfl, folded, finished⟩ := objectOf_eq_ok_iff.mp read
    obtain ⟨sourced, isRest⟩ :=
      (record inner).sourced folded fun member present => plain.member present
    exact (record inner).rewritten name isRest (rewrites sourced finished)
  exact ⟨respects_object name levels record, fun plain read => (written plain read).1,
    fun plain read => (written plain read).2⟩

/-- A record that is written as an object, but may be read from the list of its fields. -/
theorem stable_or_list (name : String) (levels : Nat)
    (record : ∀ inner, Record (table inner) inner start (fun _ => ∅) finish)
    (rewrites : ∀ {inner : Nat} {state : σ} {value : α}, (table inner).Sourced state →
      finish state = .ok value →
        Rewrites (table inner) inner (fun _ => ∅) finish toJson state value)
    {items : Nat → List Tree → Except ReadError α}
    (itemsRespect : ∀ inner, RespectsItems (items inner))
    (sourced : ∀ {inner : Nat} {trees : List Tree} {value : α},
      (∀ tree ∈ trees, tree.PlainIntegers) → items inner trees = .ok value →
        ∃ state, (table inner).Sourced state ∧ finish state = .ok value) :
    Stable levels (listOr levels items
      (objectOf name levels (fun inner => (table inner).step) start finish)) toJson := by
  have object := stable name levels record rewrites
  have written : ∀ {tree : Tree} {value : α}, tree.PlainIntegers → listOr levels items
      (objectOf name levels (fun inner => (table inner).step) start finish) tree = .ok value →
        (toJson value).Fits levels ∧
          objectOf name levels (fun inner => (table inner).step) start finish
            (toJson value).tree = .ok value := by
    intro tree value plain read
    rcases listOr_eq_ok_iff.mp read with ⟨trees, inner, rfl, rfl, listed⟩ | ⟨-, meant⟩
    · obtain ⟨state, isSourced, finished⟩ := sourced (fun tree member => plain.item member) listed
      exact (record inner).rewritten name (fun _ absent => absurd absent List.not_mem_nil)
        (rewrites isSourced finished)
    · exact ⟨object.fits plain meant, object.again plain meant⟩
  refine ⟨respects_listOr itemsRespect object.respects, fun plain read => (written plain read).1,
    fun plain read => ?_⟩
  have asObject := (written plain read).2
  refine listOr_eq_ok_iff.mpr (.inr ⟨fun trees same => ?_, asObject⟩)
  rw [same] at asObject
  obtain ⟨members, inner, final, noObject, -⟩ := objectOf_eq_ok_iff.mp asObject
  cases noObject

end Record

end RenderLink.Json
