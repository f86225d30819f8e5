/-
**Asset URLs are read again as they are written.**

Attribute names hold no object, so they are written as the value they were read from. The attributes
by tag are a dictionary, which is written as the tidy form of the object it was read from. The base
of relative URLs is a record with one field, which may also stand in a list.

* `AttributeNames.stable`, `AssetUrlTransform.stable`, `AssetUrlOptions.stable`: **what is read is
  written in a form that is read as the same.**
-/

import RenderLink.Options.AssetUrls
import RenderLink.Proofs.Json.Stability

namespace RenderLink

open Json

/-! ### Attributes of a tag -/

namespace AttributeNames

theorem mapM_text?_eq_some_iff {items : List Json} {names : List String} :
    items.mapM text? = some names ↔ items = names.map .string := by
  constructor
  · intro read
    have each := mapM_eq_some_iff.mp read
    clear read
    induction each with
    | nil => rfl
    | @cons item name _ _ known _ ih =>
      rw [List.map_cons, ← ih]
      cases item with
      | string text =>
        cases known
        rfl
      | _ => cases known
  · rintro rfl
    rw [mapM_eq_some_iff, List.forall₂_map_left_iff]
    exact List.forall₂_same.mpr fun name _ => rfl

/-- Attribute names are written as the value that they were read from. -/
theorem toJson_of_ofJson? {value : Json} {names : AttributeNames}
    (read : ofJson? value = some names) : names.toJson = value := by
  cases value with
  | string name =>
    cases read
    rfl
  | list items =>
    obtain ⟨texts, each, rfl⟩ := Option.map_eq_some_iff.mp read
    rw [mapM_text?_eq_some_iff.mp each]
    rfl
  | _ => cases read

theorem tidy_toJson (names : AttributeNames) : names.toJson.tidy = names.toJson := by
  cases names with
  | one name => rfl
  | many names =>
    rw [toJson, tidy_list, List.map_map]
    rfl

/-- Tidying a value does not change the attribute names that it stands for. -/
theorem ofJson?_tidy (value : Json) : ofJson? value.tidy = ofJson? value := by
  cases value with
  | list items =>
    rw [tidy_list]
    have same : (items.map tidy).mapM text? = items.mapM text? := by
      rw [List.mapM_map]
      congr 1
      funext item
      cases item <;> rfl
    rw [ofJson?, ofJson?, same]
  | _ => rfl

/-- The attribute names of a tree. -/
def meaning (levels : Nat) : Tree → Except ReadError AttributeNames :=
  choiceOf "OneOrMany" levels ofJson?

theorem reads (levels : Nat) : Reads (decoder levels) (meaning levels) :=
  reads_choice "OneOrMany" levels ofJson?

theorem stable (levels : Nat) : Stable levels (meaning levels) toJson := by
  refine stable_choice "OneOrMany" levels ?_ ?_
  · intro value other names alike read
    rw [← ofJson?_tidy, ← alike.tidy_eq, ofJson?_tidy]
    exact read
  · intro value names read
    rw [ofJson?_tidy, ← toJson_of_ofJson? read, tidy_toJson]
    exact ⟨rfl, ofJson?_toJson names⟩

end AttributeNames

/-! ### The transformation -/

namespace AssetUrlTransform

theorem tag?_tidied (member : String × Json) : tag? (tidied member) = tag? member := by
  rw [tag?, tag?, tidied, AttributeNames.ofJson?_tidy]

theorem mapM_tag?_tidied (members : List (String × Json)) :
    (members.map tidied).mapM tag? = members.mapM tag? := by
  rw [List.mapM_map]
  congr 1
  funext member
  exact tag?_tidied member

/-- Tags are written as the members that they were read from. -/
theorem map_toJson_of_mapM {members : List (String × Json)}
    {tags : List (String × AttributeNames)} (read : members.mapM tag? = some tags) :
    tags.map (Dictionary.mapValue AttributeNames.toJson) = members := by
  have each := mapM_eq_some_iff.mp read
  clear read
  induction each with
  | nil => rfl
  | @cons member tag _ _ known _ ih =>
    obtain ⟨names, found, rfl⟩ := Option.map_eq_some_iff.mp known
    rw [List.map_cons, ih, Dictionary.mapValue, AttributeNames.toJson_of_ofJson? found]

/-- Members that are written for tags are read as these tags. -/
theorem mapM_tag?_toJson (tags : List (String × AttributeNames)) :
    (tags.map (Dictionary.mapValue AttributeNames.toJson)).mapM tag? = some tags := by
  rw [mapM_eq_some_iff, List.forall₂_map_left_iff]
  refine List.forall₂_same.mpr fun tag _ => ?_
  show (AttributeNames.ofJson? tag.2.toJson).map _ = some tag
  rw [AttributeNames.ofJson?_toJson]
  rfl

/-- The same members, up to their order, hold the same tags. -/
theorem samePairs_tags {members others : List (String × Json)}
    {tags : List (String × AttributeNames)} (same : SamePairs members others)
    (read : members.mapM tag? = some tags) :
    ∃ found, others.mapM tag? = some found ∧ SamePairs tags found := by
  rcases same with rfl | ⟨perm, distinct⟩
  · exact ⟨tags, read, .inl rfl⟩
  · obtain ⟨found, each, alsoPerm⟩ :=
      List.perm_comp_forall₂ perm.symm (mapM_eq_some_iff.mp read)
    refine ⟨found, mapM_eq_some_iff.mpr each, .inr ⟨alsoPerm.symm, ?_⟩⟩
    rw [← map_toJson_of_mapM read, List.map_map] at distinct
    exact distinct

/-- The transformation of a tree. -/
def meaning (levels : Nat) : Tree → Except ReadError AssetUrlTransform :=
  choiceOf "AssetUrlTransform" levels ofJson?

theorem reads (levels : Nat) : Reads (decoder levels) (meaning levels) :=
  reads_choice "AssetUrlTransform" levels ofJson?

/-- Alike values stand for the same transformation. -/
theorem ofJson?_of_alike {value other : Json} {transform : AssetUrlTransform}
    (alike : Alike value other) (read : ofJson? value = some transform) :
    ofJson? other = some transform := by
  cases value with
  | bool on =>
    cases other with
    | bool found =>
      cases alike
      exact read
    | _ => cases alike
  | object members =>
    cases other with
    | object others =>
      obtain ⟨tags, each, rfl⟩ := Option.map_eq_some_iff.mp read
      obtain ⟨found, alsoEach, same⟩ :=
        samePairs_tags alike ((mapM_tag?_tidied members).trans each)
      rw [ofJson?, ← mapM_tag?_tidied, alsoEach, Option.map_some,
        Dictionary.ofList_eq_of_samePairs same]
    | _ => cases alike
  | _ => cases read

/-- A transformation is written as the tidy form of the value that it was read from. -/
theorem toJson_of_ofJson? {value : Json} {transform : AssetUrlTransform}
    (read : ofJson? value = some transform) :
    transform.toJson = value.tidy ∧ ofJson? value.tidy = some transform := by
  cases value with
  | bool on =>
    cases read
    exact ⟨rfl, rfl⟩
  | object members =>
    obtain ⟨tags, each, rfl⟩ := Option.map_eq_some_iff.mp read
    have tidyMembers : members.map tidied = tags.map (Dictionary.mapValue AttributeNames.toJson) :=
      (map_toJson_of_mapM ((mapM_tag?_tidied members).trans each)).symm
    have entries : (dictionary members).entries =
        (Dictionary.ofList tags).entries.map (Dictionary.mapValue AttributeNames.toJson) := by
      rw [dictionary_eq, tidyMembers, Dictionary.entries_ofList_map]
    rw [tidy_object, entries]
    refine ⟨rfl, ?_⟩
    rw [ofJson?, mapM_tag?_toJson, Option.map_some, Dictionary.ofList_entries]
  | _ => cases read

theorem stable (levels : Nat) : Stable levels (meaning levels) toJson :=
  stable_choice "AssetUrlTransform" levels ofJson?_of_alike toJson_of_ofJson?

end AssetUrlTransform

/-! ### The base of relative URLs -/

namespace AssetUrlOptions

/-- The only field of the options. -/
def table : Table (Option (Option String)) where
  slots := [
    { name := "base", Value := Option String, get := id, set := fun _ found => some found
      meaning := optionalOf textOf }]
  other _ _ := .ok id

theorem table_lawful : table.Lawful where
  get_set := by simp [table]
  apart := by simp [table]
  get_other slot member key tree change unknown state := by
    cases unknown
    rfl

theorem fieldsRead : FieldsRead fields table.step := by
  refine table_lawful.fieldsRead ?_ ?_
  · simp only [table, List.forall_mem_cons]
    exact ⟨⟨_, reads_text.optional, fun state => by rw [fields]; rfl⟩, by simp⟩
  · intro key unnamed state
    simp only [table, Table.names, List.map_cons, List.map_nil, List.mem_cons, not_or] at unnamed
    refine ⟨_, ?_, reads_skipValue.map fun _ => state⟩
    simp [fields, unnamed, Decoder.unknownField]

/-- The options of a list with the base, which may be missing. -/
def itemsOf : List Tree → Except ReadError AssetUrlOptions :=
  nextItem (optionalOf textOf) fun base => noItem ⟨base.join⟩

/-- The options of what has been read. -/
def finish (base : Option (Option String)) : Except ReadError AssetUrlOptions := .ok ⟨base.join⟩

/-- The options of a tree. -/
def meaning (levels : Nat) : Tree → Except ReadError AssetUrlOptions :=
  listOr levels (fun _ => itemsOf)
    (objectOf "AssetUrlOptions" levels (fun _ => table.step) none finish)

theorem reads (levels : Nat) : Reads (decoder levels) (meaning levels) := by
  refine reads_objectOrList "AssetUrlOptions" levels (fun _ => fieldsRead) none _ fun inner => ?_
  rw [Reader.bind_assoc]
  exact reads_text.optional.nextItem true fun base => readsItems_closeList false _

theorem record (inner : Nat) : Record table inner none (fun _ => ∅) finish where
  lawful := table_lawful
  blank := by simp [table]
  rests := Table.rests_of_skips fun _ _ => rfl
  finish_congr agree _ := by
    simp only [table, List.forall_mem_cons] at agree
    exact congrArg finish agree.1
  respects := by
    simp only [table, List.forall_mem_cons]
    exact ⟨respects_text.optional, by simp⟩

/-- A base is written as a string and read from it. -/
theorem rewrites (inner : Nat) (state : Option (Option String)) (options : AssetUrlOptions) :
    Rewrites table inner (fun _ => ∅) finish toJson state options := by
  obtain ⟨base⟩ := options
  refine ⟨optionalMember "base" (base.map .string), base.map some, ?_, ⟨?_, ?_, ?_⟩, ?_, rfl⟩
  · exact congrArg Json.object (List.append_nil _).symm
  · cases base <;> simp [optionalMember, table, Table.names]
  · cases base <;> cases inner <;> simp [optionalMember, Fits]
  · simp only [table, List.forall_mem_cons]
    refine ⟨?_, by simp⟩
    show onlyOf "base" (optionalOf textOf) _ = .ok (base.map some)
    rw [named_optionalMember, if_pos rfl]
    exact onlyOf_written fun text _ => optionalOf_textOf_written text
  · cases base <;> rfl

theorem stable (levels : Nat) : Stable levels (meaning levels) toJson := by
  refine Record.stable_or_list "AssetUrlOptions" levels record (fun _ _ => rewrites _ _ _) ?_ ?_
  · exact fun _ => RespectsItems.next respects_text.optional fun _ => respectsItems_none _
  · intro inner trees options plain read
    obtain ⟨base, only, ended⟩ := (nextItem_eq_ok_iff "base").mp read
    obtain ⟨-, rfl⟩ := noItem_eq_ok_iff.mp ended
    refine ⟨base, ?_, rfl⟩
    simp only [Table.Sourced, table, List.forall_mem_cons]
    refine ⟨fun found stored => ?_, by simp⟩
    exact exists_plain_of_onlyOf (plain_of_place plain 0) (only.trans (congrArg Except.ok stored))

end AssetUrlOptions

end RenderLink
