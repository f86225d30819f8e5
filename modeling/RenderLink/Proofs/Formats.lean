/-
**Every format is read again as it is written.**

The formats of the options and of the reports are built from the same parts: records with and
without other keys, values of one of several shapes, and values that may be null. Each of them is
stable.

* `TemplateBlock.stable`, `Report.stable`: the two records that may also stand in a list and are no
  options.
* `formats_stable`: **in every format, what is read is written in a form that is read as the same,
  and neither the order of keys nor space matters.**
-/

import RenderLink.Block
import RenderLink.Proofs.Options.Compile
import RenderLink.Report

namespace RenderLink

open Json

/-! ### Template blocks -/

namespace TemplateBlock

/-- The only field of a block. -/
def table : Table (Option Bool) where
  slots := [
    { name := "functional", Value := Bool, get := id, set := fun _ found => some found
      meaning := booleanOf }]
  other _ _ := .ok id

theorem table_lawful : table.Lawful where
  get_set := by simp [table]
  apart := by simp [table]
  get_other slot member key tree change unknown state := by
    cases unknown
    rfl

theorem fieldsRead : FieldsRead fields table.step := by
  refine table_lawful.fieldsRead ?_ ?_
  · simp only [table, List.forall_mem_cons]
    exact ⟨⟨_, reads_boolean, fun state => by rw [fields]; rfl⟩, by simp⟩
  · intro key unnamed state
    simp only [table, Table.names, List.map_cons, List.map_nil, List.mem_cons, not_or] at unnamed
    refine ⟨_, ?_, reads_skipValue.map fun _ => state⟩
    simp [fields, unnamed, Decoder.unknownField]

/-- The block of what has been read. -/
def finish (functional : Option Bool) : Except ReadError TemplateBlock :=
  .ok ⟨functional.getD false⟩

/-- The block of a list with its attribute, which may be missing. -/
def itemsOf : List Tree → Except ReadError TemplateBlock :=
  nextItem booleanOf fun functional => noItem ⟨functional.getD false⟩

/-- The block of a tree. -/
def meaning (levels : Nat) : Tree → Except ReadError TemplateBlock :=
  listOr levels (fun _ => itemsOf) (objectOf "SfcBlock" levels (fun _ => table.step) none finish)

theorem reads (levels : Nat) : Reads (decoder levels) (meaning levels) := by
  refine reads_objectOrList "SfcBlock" levels (fun _ => fieldsRead) none _ fun inner => ?_
  rw [Reader.bind_assoc]
  exact reads_boolean.nextItem true fun functional => readsItems_closeList false _

theorem record (inner : Nat) : Record table inner none (fun _ => ∅) finish where
  lawful := table_lawful
  blank := by simp [table]
  rests := Table.rests_of_skips fun _ _ => rfl
  finish_congr agree _ := by
    simp only [table, List.forall_mem_cons] at agree
    exact congrArg finish agree.1
  respects := by
    simp only [table, List.forall_mem_cons]
    exact ⟨respects_boolean, by simp⟩

/-- An attribute is written as a truth value and read from it. -/
theorem rewrites (inner : Nat) (state : Option Bool) (block : TemplateBlock) :
    Rewrites table inner (fun _ => ∅) finish toJson state block := by
  refine ⟨[("functional", .bool block.functional)], some block.functional, rfl, ⟨?_, ?_, ?_⟩, rfl,
    rfl⟩
  · simp [table, Table.names]
  · simp only [List.forall_mem_cons]
    exact ⟨fits_bool inner _, by simp⟩
  · simp only [table, List.forall_mem_cons]
    exact ⟨by simp [onlyOf, tree, booleanOf, Except.map], by simp⟩

theorem stable (levels : Nat) : Stable levels (meaning levels) toJson := by
  refine Record.stable_or_list "SfcBlock" levels record (fun _ _ => rewrites _ _ _) ?_ ?_
  · exact fun _ => RespectsItems.next respects_boolean fun _ => respectsItems_none _
  · intro inner trees block plain read
    obtain ⟨functional, only, ended⟩ := (nextItem_eq_ok_iff "functional").mp read
    obtain ⟨-, rfl⟩ := noItem_eq_ok_iff.mp ended
    refine ⟨functional, ?_, rfl⟩
    simp only [Table.Sourced, table, List.forall_mem_cons]
    refine ⟨fun found stored => ?_, by simp⟩
    exact exists_plain_of_onlyOf (plain_of_place plain 0) (only.trans (congrArg Except.ok stored))

end TemplateBlock

/-! ### Reports -/

namespace Report

/-- The fields of a report. -/
def table : Table Draft where
  slots := [
    { name := "id", Value := String, get := Draft.id
      set := fun draft found => { draft with id := some found }, meaning := textOf },
    { name := "message", Value := String, get := Draft.message
      set := fun draft found => { draft with message := some found }, meaning := textOf },
    { name := "frame", Value := Option String, get := Draft.frame
      set := fun draft found => { draft with frame := some found }
      meaning := optionalOf textOf }]
  other _ _ := .ok fun draft => draft

theorem table_lawful : table.Lawful where
  get_set := by simp [table]
  apart := by simp [table, Table.Apart]
  get_other slot member key tree change unknown state := by
    cases unknown
    rfl

theorem fieldsRead : FieldsRead fields table.step := by
  refine table_lawful.fieldsRead ?_ ?_
  · simp only [table, List.forall_mem_cons]
    exact ⟨⟨_, reads_text, fun state => by rw [fields]⟩,
      ⟨_, reads_text, fun state => by rw [fields]⟩,
      ⟨_, reads_text.optional, fun state => by rw [fields]⟩, by simp⟩
  · intro key unnamed state
    simp only [table, Table.names, List.map_cons, List.map_nil, List.mem_cons, not_or] at unnamed
    refine ⟨_, ?_, reads_skipValue.map fun _ => state⟩
    simp [fields, unnamed, Decoder.unknownField]

/-- The report of a list with its fields, of which the frame may be missing. -/
def itemsOf : List Tree → Except ReadError Report :=
  requiredItem textOf 0 (.fields "ErrorReport" 3) fun id =>
    requiredItem textOf 1 (.fields "ErrorReport" 3) fun message =>
      nextItem (optionalOf textOf) fun frame => noItem { id, message, frame := frame.join }

/-- The report of a tree. -/
def meaning (levels : Nat) : Tree → Except ReadError Report :=
  listOr levels (fun _ => itemsOf)
    (objectOf "ErrorReport" levels (fun _ => table.step) {} Draft.finish)

theorem reads (levels : Nat) : Reads (decoder levels) (meaning levels) := by
  refine reads_objectOrList "ErrorReport" levels (fun _ => fieldsRead) {} _ fun inner => ?_
  rw [fromList, Reader.bind_assoc]
  refine reads_text.requiredItem 0 _ fun id => ?_
  rw [Reader.bind_assoc]
  refine reads_text.requiredItem 1 _ fun message => ?_
  rw [Reader.bind_assoc]
  exact reads_text.optional.nextItem false fun frame => readsItems_closeList false _

theorem record (inner : Nat) : Record table inner {} (fun _ => ∅) Draft.finish where
  lawful := table_lawful
  blank := by simp [table]
  rests := Table.rests_of_skips fun _ _ => rfl
  finish_congr agree _ := by
    simp only [table, List.forall_mem_cons] at agree
    obtain ⟨id, message, frame, -⟩ := agree
    unfold Draft.finish
    rw [id, message, frame]
  respects := by
    simp only [table, List.forall_mem_cons]
    exact ⟨respects_text, respects_text, respects_text.optional, by simp⟩

/-- A report is written with its frame, if it has one, and read from it. -/
theorem rewrites (inner : Nat) (state : Draft) (report : Report) :
    Rewrites table inner (fun _ => ∅) Draft.finish toJson state report := by
  obtain ⟨id, message, frame⟩ := report
  refine ⟨[("id", .string id), ("message", .string message)] ++
    optionalMember "frame" (frame.map .string),
    ⟨some id, some message, frame.map some⟩, ?_, ⟨?_, ?_, ?_⟩, ?_, rfl⟩
  · exact congrArg Json.object (List.append_nil _).symm
  · simp only [List.forall_mem_append, List.forall_mem_cons, forall_mem_optionalMember]
    simp [table, Table.names]
  · simp only [List.forall_mem_append, List.forall_mem_cons, forall_mem_optionalMember]
    exact ⟨⟨fits_string inner _, fits_string inner _, by simp⟩,
      fun text _ => fits_string inner text⟩
  · simp only [table, List.forall_mem_cons]
    refine ⟨?_, ?_, ?_, by simp⟩ <;> simp
    · exact onlyOf_single (textOf_written _)
    · exact onlyOf_single (textOf_written _)
    · exact onlyOf_written fun text _ => optionalOf_textOf_written text
  · cases frame <;> rfl

theorem stable (levels : Nat) : Stable levels (meaning levels) toJson := by
  refine Record.stable_or_list "ErrorReport" levels record (fun _ _ => rewrites _ _ _) ?_ ?_
  · exact fun _ => RespectsItems.required respects_text fun _ =>
      RespectsItems.required respects_text fun _ =>
        RespectsItems.next respects_text.optional fun _ => respectsItems_none _
  · intro inner trees report plain read
    match trees with
    | [] => cases read
    | [_] =>
      obtain ⟨id, -, ended⟩ := bind_eq_ok_iff.mp read
      cases ended
    | first :: second :: others =>
      obtain ⟨id, isId, behindId⟩ := bind_eq_ok_iff.mp read
      obtain ⟨message, isMessage, behindMessage⟩ := bind_eq_ok_iff.mp behindId
      obtain ⟨frame, only, ended⟩ := (nextItem_eq_ok_iff "frame").mp behindMessage
      obtain ⟨-, rfl⟩ := noItem_eq_ok_iff.mp ended
      refine ⟨⟨some id, some message, frame⟩, ?_, rfl⟩
      simp only [Table.Sourced, table, List.forall_mem_cons]
      refine ⟨fun found stored => ?_, fun found stored => ?_, fun found stored => ?_, by simp⟩
      · exact ⟨first, plain first List.mem_cons_self,
          isId.trans (congrArg Except.ok (Option.some.inj stored))⟩
      · exact ⟨second, plain second (List.mem_cons_of_mem _ List.mem_cons_self),
          isMessage.trans (congrArg Except.ok (Option.some.inj stored))⟩
      · exact exists_plain_of_onlyOf (plain_of_place (fun tree member => plain tree
          (List.mem_cons_of_mem _ (List.mem_cons_of_mem _ member))) 0)
          (only.trans (congrArg Except.ok stored))

end Report

/-! ### All formats -/

/-- **In every format, what is read is written in a form that is read as the same, and neither the
order of keys nor space matters.** -/
theorem formats_stable :
    IsStable (TemplateBlock.decoder nestingLimit) TemplateBlock.toJson ∧
      IsStable (AssetUrlOptions.decoder nestingLimit) AssetUrlOptions.toJson ∧
      IsStable (AttributeNames.decoder nestingLimit) AttributeNames.toJson ∧
      IsStable (AssetUrlTransform.decoder nestingLimit) AssetUrlTransform.toJson ∧
      IsStable (CompilerOptions.decoder nestingLimit) CompilerOptions.toJson ∧
      IsStable (CompileOptions.decoder nestingLimit) CompileOptions.toJson ∧
      IsStable (Overrides.decoder nestingLimit) Overrides.toJson ∧
      IsStable (Report.decoder nestingLimit) Report.toJson :=
  ⟨(TemplateBlock.stable _).isStable (TemplateBlock.reads _),
    (AssetUrlOptions.stable _).isStable (AssetUrlOptions.reads _),
    (AttributeNames.stable _).isStable (AttributeNames.reads _),
    (AssetUrlTransform.stable _).isStable (AssetUrlTransform.reads _),
    (CompilerOptions.stable _).isStable (CompilerOptions.reads _),
    (CompileOptions.stable _).isStable (CompileOptions.reads _),
    (Overrides.stable _).isStable (Overrides.reads _),
    (Report.stable _).isStable (Report.reads _)⟩

/-- A report with null for its frame and a key that is none of a report's. -/
def foreignReport : Json :=
  .object [("message", .string "m"), ("level", .number (.natural 7)), ("frame", .null),
    ("id", .string "a")]

/-- The same report in another order. -/
def foreignReordered : Json :=
  .object [("id", .string "a"), ("frame", .null), ("level", .number (.natural 7)),
    ("message", .string "m")]

theorem foreignReport_fits : foreignReport.Fits nestingLimit := by
  simp [foreignReport, nestingLimit, Fits, Number.IsInteger]

theorem foreignReport_plain : foreignReport.tree.PlainIntegers := by
  intro text there
  obtain rfl : text = .ofNatural 7 := List.mem_singleton.mp there
  exact .inl ⟨7, rfl⟩

theorem foreignReport_rearranged : Rearranged foreignReport.tree foreignReordered.tree := by
  refine .object rfl (List.forall₂_same.mpr fun _ _ => .refl _) (.inr ⟨?_, ?_⟩)
  · exact (List.reverse_perm (memberTrees _)).symm
  · simp [Distinct, memberTrees, StringText.value?_ofText]

/-- A report is read, it is read again as it is written, and it is read from a text with space and
another order of its keys. -/
theorem foreign_report_is_read :
    decode (Report.decoder nestingLimit)
        "\x7b\"message\":\"m\",\"level\":7,\"frame\":null,\"id\":\"a\"\x7d" =
      .ok { id := "a", message := "m" } ∧
    decode (Report.decoder nestingLimit) "\x7b\"id\":\"a\",\"message\":\"m\"\x7d" =
      .ok { id := "a", message := "m" } ∧
    decode (Report.decoder nestingLimit)
        " \x7b \"id\" : \"a\" , \"frame\" : null , \"level\" : 7 , \"message\" : \"m\" \x7d" =
      .ok { id := "a", message := "m" } := by
  obtain ⟨-, -, -, -, -, -, -, stable⟩ := formats_stable
  have text : foreignReport.toText =
      "\x7b\"message\":\"m\",\"level\":7,\"frame\":null,\"id\":\"a\"\x7d" := by
    decide +kernel
  have written : (Report.toJson { id := "a", message := "m" }).toText =
      "\x7b\"id\":\"a\",\"message\":\"m\"\x7d" := by
    decide +kernel
  have read : decode (Report.decoder nestingLimit) foreignReport.toText =
      .ok { id := "a", message := "m" } := by
    decide +kernel
  have spells : foreignReport.tree.Spells foreignReport.toText := spells_toText foreignReport_fits
  have spaced : foreignReordered.tree.Spells
      " \x7b \"id\" : \"a\" , \"frame\" : null , \"level\" : 7 , \"message\" : \"m\" \x7d" := by
    unfold Tree.Spells
    rw [show String.toList _ = foreignReordered.tree.words.flatMap (' ' :: ·) by decide +kernel]
    exact Spaced.blanks _
  rw [← text, ← written]
  exact ⟨read, stable.again read spells foreignReport_plain,
    stable.rearranged read spells foreignReport_rearranged spaced⟩

end RenderLink
