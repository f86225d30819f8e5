/-
**Which texts are outputs of the template compiler.**

An output is an object with its code, its tips and its errors, or the list of these three, of which
only the code must be there. What stands among the tips and errors is never a reason to refuse it:
each element becomes the diagnostic that it describes, whatever its shape.

* `IsOutput`: the trees that are outputs, by the strings and lists at their top alone.
* `parse_iff_isOutput`: **a text that is read without breaking the grammar is an output exactly when
  its tree is one, and each element of its tips and errors is the diagnostic that it describes.**
-/

import RenderLink.Output
import RenderLink.Proofs.Diagnostic
import RenderLink.Proofs.Json.Record

namespace RenderLink

open Json

/-! ### Decoding outputs -/

namespace TemplateOutput

/-- The diagnostic of an element. -/
def diagnosticOf (levels : Nat) (tree : Tree) : Except ReadError Diagnostic :=
  (kept (tree.json? levels)).map Diagnostic.ofJson

/-- The diagnostics of a list; null is a list without any. -/
def diagnosticsOf (levels : Nat) (tree : Tree) : Except ReadError (List Diagnostic) :=
  (optionalOf (listOr levels (fun inner items => items.mapM (diagnosticOf inner))
    (mismatched .list)) tree).map fun found => found.getD []

theorem reads_diagnostics (levels : Nat) : Reads (diagnostics levels) (diagnosticsOf levels) :=
  (Reads.listOf fun inner => (reads_value inner).map Diagnostic.ofJson).optional.map _

/-- The fields of an output. -/
def table (levels : Nat) : Table Draft where
  slots := [
    { name := "code", Value := String, get := Draft.code
      set := fun draft found => { draft with code := some found }, meaning := textOf },
    { name := "tips", Value := List Diagnostic, get := Draft.tips
      set := fun draft found => { draft with tips := some found }
      meaning := diagnosticsOf levels },
    { name := "errors", Value := List Diagnostic, get := Draft.errors
      set := fun draft found => { draft with errors := some found }
      meaning := diagnosticsOf levels }]
  other _ _ := .ok id

theorem table_lawful (levels : Nat) : (table levels).Lawful where
  get_set := by simp [table]
  apart := by simp [table, Table.Apart]
  get_other slot member key tree change unknown state := by
    cases unknown
    rfl

theorem fieldsRead (levels : Nat) : FieldsRead (fields levels) (table levels).step := by
  refine (table_lawful levels).fieldsRead ?_ ?_
  · simp only [table, List.forall_mem_cons]
    exact ⟨⟨_, reads_text, fun state => by rw [fields]⟩,
      ⟨_, reads_diagnostics levels, fun state => by rw [fields]⟩,
      ⟨_, reads_diagnostics levels, fun state => by rw [fields]⟩, by simp⟩
  · intro key unnamed state
    simp only [table, Table.names, List.map_cons, List.map_nil, List.mem_cons, not_or] at unnamed
    refine ⟨_, ?_, reads_skipValue.map fun _ => state⟩
    simp [fields, unnamed, Decoder.unknownField]

/-- The list of an output's three fields. -/
def itemsOf (levels : Nat) : List Tree → Except ReadError TemplateOutput :=
  requiredItem textOf 0 (.fields "TemplateOutput" 3) fun code =>
    nextItem (diagnosticsOf levels) fun tips => nextItem (diagnosticsOf levels) fun errors =>
      noItem { code, tips := tips.getD [], errors := errors.getD [] }

theorem readsItems (levels : Nat) :
    ReadsItems true (do let found ← fromList levels; closeList; pure found) (itemsOf levels) := by
  rw [fromList, Reader.bind_assoc]
  refine reads_text.requiredItem 0 _ fun code => ?_
  rw [Reader.bind_assoc]
  refine (reads_diagnostics levels).nextItem false fun tips => ?_
  rw [Reader.bind_assoc]
  exact (reads_diagnostics levels).nextItem false fun errors => readsItems_closeList false _

/-- The output of a tree. -/
def outputOf (levels : Nat) : Tree → Except ReadError TemplateOutput :=
  listOr levels itemsOf
    (objectOf "TemplateOutput" levels (fun inner => (table inner).step) {} Draft.finish)

theorem reads_output (levels : Nat) : Reads (decoder levels) (outputOf levels) :=
  reads_objectOrList "TemplateOutput" levels fieldsRead {} Draft.finish readsItems

/-! ### Trees that are outputs -/

/-- A list, or null in the place of one. -/
def IsListing : Tree → Prop
  | .null | .list _ => True
  | _ => False

/-- The elements of a listing. -/
def elements : Tree → List Tree
  | .list items => items
  | _ => []

/-- A field that may be missing, but holds a listing if it is there. -/
def HoldsListing (name : String) (place : Nat) (tree : Tree) : Prop :=
  (part name place tree).length ≤ 1 ∧ ∀ listing ∈ part name place tree, IsListing listing

/-- The trees that are outputs: an object with one string for its code, or a list of up to three
elements that begins with one; there may be tips and errors, each a listing. -/
structure IsOutput (tree : Tree) : Prop where
  code : ∃ text, part "code" 0 tree = [.string text]
  tips : HoldsListing "tips" 1 tree
  errors : HoldsListing "errors" 2 tree
  short : ∀ items, tree = .list items → items.length ≤ 3

/-- The diagnostic that an element describes, whose brackets nest within a number of levels. -/
def IsElement (levels : Nat) (tree : Tree) (diagnostic : Diagnostic) : Prop :=
  ∃ value, tree.json? levels = some value ∧ Diagnostic.Describes value diagnostic

/-- The elements of a field and their diagnostics, one for each in the same order. -/
def AreElements (levels : Nat) (name : String) (place : Nat) (tree : Tree)
    (diagnostics : List Diagnostic) : Prop :=
  List.Forall₂ (IsElement levels) ((part name place tree).flatMap elements) diagnostics

/-- The output that a tree holds. -/
structure Holds (levels : Nat) (tree : Tree) (output : TemplateOutput) : Prop where
  code : ∃ text, part "code" 0 tree = [.string text] ∧ text.value? = some output.code
  tips : AreElements levels "tips" 1 tree output.tips
  errors : AreElements levels "errors" 2 tree output.errors

/-! ### What is read -/

/-- A field that is read holds a listing, and a diagnostic for each of its elements. -/
theorem diagnosticsOf_eq_ok {levels : Nat} {tree : Tree} {found : List Diagnostic}
    (read : diagnosticsOf levels tree = .ok found) :
    IsListing tree ∧ List.Forall₂ (IsElement (levels - 1)) (elements tree) found := by
  obtain ⟨listing, optional, rfl⟩ := map_eq_ok_iff.mp read
  rcases optionalOf_eq_ok_iff.mp optional with ⟨rfl, rfl⟩ | ⟨-, diagnostics, listed, rfl⟩
  · exact ⟨trivial, .nil⟩
  rcases listOr_eq_ok_iff.mp listed with ⟨items, inner, rfl, rfl, each⟩ | ⟨-, mismatch⟩
  · refine ⟨trivial, (mapM_eq_ok_iff.mp each).imp fun item diagnostic described => ?_⟩
    obtain ⟨value, known, rfl⟩ := map_eq_ok_iff.mp described
    exact ⟨value, kept_eq_ok_iff.mp known, Diagnostic.describes_iff.mpr rfl⟩
  · exact absurd mismatch mismatched_ne_ok

/-- The part of an output for its tips or errors, if at most one tree stands for it. -/
theorem areElements_of_onlyOf {levels : Nat} {name : String} (place : Nat) (tree : Tree)
    {found : Option (List Diagnostic)}
    (only : onlyOf name (diagnosticsOf levels) (part name place tree) = .ok found) :
    HoldsListing name place tree ∧
      AreElements (levels - 1) name place tree (found.getD []) := by
  unfold HoldsListing AreElements
  rcases onlyOf_eq_ok_iff.mp only with ⟨none, rfl⟩ | ⟨listing, diagnostics, one, read, rfl⟩
  · rw [none]
    exact ⟨by simp, .nil⟩
  · rw [one]
    obtain ⟨isListing, described⟩ := diagnosticsOf_eq_ok read
    exact ⟨by simpa using isListing, by simpa using described⟩

/-- **What is read as an output is one, and holds what its tree holds.** -/
theorem holds_of_outputOf {levels : Nat} {tree : Tree} {output : TemplateOutput}
    (read : outputOf levels tree = .ok output) :
    IsOutput tree ∧ Holds (levels - 2) tree output := by
  rcases listOr_eq_ok_iff.mp read with ⟨items, inner, rfl, rfl, listed⟩ | ⟨noList, written⟩
  · match items with
    | [] => cases listed
    | code :: items =>
      obtain ⟨found, coded, behindCode⟩ := bind_eq_ok_iff.mp listed
      obtain ⟨text, rfl, known⟩ := textOf_eq_ok_iff.mp coded
      obtain ⟨tips, tipsRead, behindTips⟩ := (nextItem_eq_ok_iff "tips").mp behindCode
      obtain ⟨errors, errorsRead, ended⟩ := (nextItem_eq_ok_iff "errors").mp behindTips
      obtain ⟨noOther, rfl⟩ := noItem_eq_ok_iff.mp ended
      rw [List.getElem?_tail] at errorsRead
      have short : items.length ≤ 2 := by
        have none := congrArg List.length noOther
        simp only [List.length_tail, List.length_nil] at none
        omega
      have isCode : part "code" 0 (.list (.string text :: items)) = [.string text] := rfl
      obtain ⟨tipsListing, tipsElements⟩ :=
        areElements_of_onlyOf 1 (.list (.string text :: items)) tipsRead
      obtain ⟨errorsListing, errorsElements⟩ :=
        areElements_of_onlyOf 2 (.list (.string text :: items)) errorsRead
      refine ⟨⟨⟨text, isCode⟩, tipsListing, errorsListing, ?_⟩,
        ⟨text, isCode, known⟩, tipsElements, errorsElements⟩
      intro others same
      obtain rfl := Tree.list.inj same
      exact Nat.succ_le_succ short
  · obtain ⟨members, inner, final, rfl, rfl, folded, finished⟩ := objectOf_eq_ok_iff.mp written
    have slots : ∀ slot ∈ (table inner).slots, onlyOf slot.name slot.meaning
        (valuesOf slot.name members) = .ok (slot.get final) := fun slot member =>
      (table_lawful inner).onlyOf_eq_get member (by revert slot member; simp [table]) folded
    simp only [table, List.forall_mem_cons] at slots
    obtain ⟨codeRead, tipsRead, errorsRead, -⟩ := slots
    obtain ⟨found, there, rest⟩ := bind_eq_ok_iff.mp finished
    cases rest
    rw [required_eq_ok_iff.mp there] at codeRead
    obtain ⟨-, none⟩ | ⟨code, value, one, coded, same⟩ := onlyOf_eq_ok_iff.mp codeRead
    · cases none
    cases same
    obtain ⟨text, rfl, known⟩ := textOf_eq_ok_iff.mp coded
    obtain ⟨tipsListing, tipsElements⟩ := areElements_of_onlyOf 1 (.object members) tipsRead
    obtain ⟨errorsListing, errorsElements⟩ := areElements_of_onlyOf 2 (.object members) errorsRead
    exact ⟨⟨⟨text, one⟩, tipsListing, errorsListing, fun items same => by cases same⟩,
      ⟨text, one, known⟩, tipsElements, errorsElements⟩

/-! ### What is not read -/

/-- A listing that is not read breaks the grammar in one of its elements. -/
theorem error_of_isListing {levels : Nat} {tree : Tree} {error : ReadError}
    (isListing : IsListing tree) (failed : diagnosticsOf levels tree = .error error) :
    error = .notJson ∧ tree.json? levels = none := by
  cases tree with
  | null => cases failed
  | list items =>
    cases levels with
    | zero =>
      cases failed
      exact ⟨rfl, rfl⟩
    | succ inner =>
      obtain ⟨item, member, described⟩ :=
        exists_of_mapM_eq_error (map_eq_error_iff.mp (map_eq_error_iff.mp failed))
      obtain ⟨unreadable, rfl⟩ := kept_eq_error_iff.mp (map_eq_error_iff.mp described)
      exact ⟨rfl, json?_list_eq_none member unreadable⟩
  | _ => exact isListing.elim

/-- A string that is not read has no value. -/
theorem error_of_textOf {text : StringText} {error : ReadError}
    (failed : textOf (.string text) = .error error) (levels : Nat) :
    error = .notJson ∧ (Tree.string text).json? levels = none := by
  obtain ⟨unreadable, rfl⟩ := kept_eq_error_iff.mp failed
  refine ⟨rfl, ?_⟩
  cases levels <;> simp [Tree.json?, unreadable]

/-- The members of an output that are not read break the grammar. -/
theorem error_of_members {levels : Nat} {members : List (StringText × Tree)} {error : ReadError}
    (isOutput : IsOutput (.object members))
    (failed : readMembers (table levels).step {} members = .error error) :
    error = .notJson ∧ (Tree.object members).json? (levels + 1) = none := by
  obtain ⟨⟨text, code⟩, ⟨fewTips, tips⟩, ⟨fewErrors, errors⟩, -⟩ := isOutput
  cases (table_lawful levels).fails_of_readMembers failed with
  | keyless present none => exact ⟨rfl, json?_object_eq_none present (.inl none)⟩
  | @filled slot _ isField before _ =>
    refine absurd ?_ before
    revert slot isField
    simp [table]
  | @twice slot _ isField many =>
    have once : ∀ slot ∈ (table levels).slots, (valuesOf slot.name members).length ≤ 1 := by
      simp only [table, List.forall_mem_cons]
      exact ⟨Nat.le_of_eq (congrArg List.length code), fewTips, fewErrors, by simp⟩
    exact absurd (Nat.le_trans many (once slot isField)) (by decide)
  | @unreadable slot tree _ isField present refused =>
    have each : ∀ slot ∈ (table levels).slots, ∀ tree ∈ valuesOf slot.name members,
        slot.meaning tree = .error error → error = .notJson ∧ tree.json? levels = none := by
      simp only [table, List.forall_mem_cons]
      refine ⟨fun tree found refused => ?_, fun tree found refused => ?_,
        fun tree found refused => ?_, by simp⟩
      · obtain rfl : tree = .string text := by
          rw [show valuesOf "code" members = [.string text] from code] at found
          exact List.mem_singleton.mp found
        exact error_of_textOf refused levels
      · exact error_of_isListing (tips tree found) refused
      · exact error_of_isListing (errors tree found) refused
    obtain ⟨isNotJson, unreadable⟩ := each slot isField tree present refused
    obtain ⟨holder, held, -, rfl⟩ := mem_valuesOf.mp present
    exact ⟨isNotJson, json?_object_eq_none held (.inr unreadable)⟩
  | other _ refused => cases refused

/-- The items of an output that are not read break the grammar. -/
theorem error_of_items {levels : Nat} {items : List Tree} {error : ReadError}
    (isOutput : IsOutput (.list items)) (failed : itemsOf levels items = .error error) :
    error = .notJson ∧ (Tree.list items).json? (levels + 1) = none := by
  obtain ⟨⟨text, code⟩, ⟨-, tips⟩, ⟨-, errors⟩, short⟩ := isOutput
  match items with
  | [] => cases code
  | first :: items =>
    obtain rfl : first = .string text := (List.cons.inj code).1
    rcases bind_eq_error_iff.mp failed with refused | ⟨found, -, behindCode⟩
    · obtain ⟨isNotJson, unreadable⟩ := error_of_textOf refused levels
      exact ⟨isNotJson, json?_list_eq_none List.mem_cons_self unreadable⟩
    rcases nextItem_eq_error behindCode with ⟨tree, member, place, refused⟩ | ⟨given, behindTips⟩
    · have isListing := tips tree (by
        show tree ∈ items[0]?.toList
        simp [place])
      obtain ⟨isNotJson, unreadable⟩ := error_of_isListing isListing refused
      exact ⟨isNotJson, json?_list_eq_none (List.mem_cons_of_mem _ member) unreadable⟩
    rcases nextItem_eq_error behindTips with ⟨tree, member, place, refused⟩ | ⟨given, ended⟩
    · rw [List.getElem?_tail] at place
      have isListing := errors tree (by
        show tree ∈ items[1]?.toList
        simp [place])
      obtain ⟨isNotJson, unreadable⟩ := error_of_isListing isListing refused
      exact ⟨isNotJson, json?_list_eq_none
        (List.mem_cons_of_mem _ (List.mem_of_mem_tail member)) unreadable⟩
    · have few := short _ rfl
      match items with
      | [] | [_] | [_, _] => cases ended
      | _ :: _ :: _ :: _ =>
        simp only [List.length_cons] at few
        omega

/-- **An output that is not read breaks the grammar in one of its elements.** -/
theorem error_of_isOutput {levels : Nat} {tree : Tree} {error : ReadError}
    (isOutput : IsOutput tree) (failed : outputOf levels tree = .error error) :
    error = .notJson ∧ tree.json? levels = none := by
  cases tree with
  | list items =>
    cases levels with
    | zero => cases failed; exact ⟨rfl, rfl⟩
    | succ inner => exact error_of_items isOutput failed
  | object members =>
    cases levels with
    | zero => cases failed; exact ⟨rfl, rfl⟩
    | succ inner =>
      rcases bind_eq_error_iff.mp failed with refused | ⟨final, folded, refused⟩
      · exact error_of_members isOutput refused
      · have codeRead := (table_lawful inner).onlyOf_eq_get List.mem_cons_self rfl folded
        obtain ⟨text, code⟩ := isOutput.code
        change onlyOf "code" textOf (part "code" 0 (.object members)) = .ok final.code at codeRead
        rw [code] at codeRead
        obtain ⟨found, -, there⟩ := map_eq_ok_iff.mp codeRead
        rw [Draft.finish, ← there] at refused
        cases refused
  | _ =>
    obtain ⟨text, code⟩ := isOutput.code
    cases code

/-- **A text that is read without breaking the grammar is an output exactly when its tree is one,
and each element of its tips and errors is the diagnostic that it describes.** -/
theorem parse_iff_isOutput (source : String)
    (taken : (∃ value, Json.parse source = .ok value) ∨ parse source ≠ .error .notJson) :
    ((∃ output, parse source = .ok output) ↔ ∃ tree : Tree, tree.Spells source ∧ IsOutput tree) ∧
      ∀ output, parse source = .ok output → ∀ tree : Tree, tree.Spells source →
        Holds (nestingLimit - 2) tree output := by
  have reads := reads_output nestingLimit
  refine ⟨⟨?_, ?_⟩, ?_⟩
  · rintro ⟨output, parsed⟩
    obtain ⟨tree, spells, meant⟩ := reads.exists_tree parsed
    exact ⟨tree, spells, (holds_of_outputOf meant).1⟩
  · rintro ⟨tree, spells, isOutput⟩
    have meant : parse source = outputOf nestingLimit tree := reads.decode_eq spells
    cases outcome : outputOf nestingLimit tree with
    | ok output => exact ⟨output, meant.trans outcome⟩
    | error error =>
      obtain ⟨rfl, unreadable⟩ := error_of_isOutput isOutput outcome
      rcases taken with ⟨value, parsed⟩ | noSyntaxError
      · have valued := (reads_value nestingLimit).decode_eq spells
        rw [unreadable, show decode (Decoder.value nestingLimit) source = .ok value from parsed]
          at valued
        cases valued
      · exact absurd (meant.trans outcome) noSyntaxError
  · intro output parsed tree spells
    exact (holds_of_outputOf ((reads.decode_eq spells).symm.trans parsed)).2

/-- An output whose tips are no diagnostics, with null for its errors. -/
def anyTips : Json :=
  .object [("code", .string "f()"), ("tips", .list [.string "slow", .null]), ("errors", .null)]

/-- It is accepted all the same, with a diagnostic for each of the tips. -/
theorem parse_anyTips :
    ∃ output, parse anyTips.toText = .ok output ∧ Holds (nestingLimit - 2) anyTips.tree output := by
  have fits : anyTips.Fits nestingLimit := by
    simp [anyTips, nestingLimit, Fits]
  obtain ⟨accepted, holds⟩ := parse_iff_isOutput anyTips.toText (.inl ⟨anyTips, parse_toText fits⟩)
  have tips : part "tips" 1 anyTips.tree = [(Json.list [.string "slow", .null]).tree] :=
    valuesOf_memberTrees "tips" _
  have errors : part "errors" 2 anyTips.tree = [.null] := valuesOf_memberTrees "errors" _
  have isOutput : IsOutput anyTips.tree := {
    code := ⟨_, valuesOf_memberTrees "code" _⟩
    tips := by simp [HoldsListing, tips, tree, IsListing]
    errors := by simp [HoldsListing, errors, IsListing]
    short := by simp [anyTips, tree] }
  obtain ⟨output, parsed⟩ := accepted.mpr ⟨anyTips.tree, spells_toText fits, isOutput⟩
  exact ⟨output, parsed, holds output parsed anyTips.tree (spells_toText fits)⟩

end TemplateOutput

end RenderLink
