/-
**Options of the template compiler are read again as they are written.**

The five known options are fields of a record that collects any other key. Each of them is written
only if it has a value, except for `outputSourceRange`, which is always written, so that a missing
value is read as false and is written as false ever after.

* `CompilerOptions.stable`: **what is read is written in a form that is read as the same.**
-/

import RenderLink.Options.Compiler
import RenderLink.Proofs.Json.Stability

namespace RenderLink.CompilerOptions

open Json

/-- The five known options; any other key is collected. -/
def table (levels : Nat) : Table Draft where
  slots := [
    { name := "outputSourceRange", Value := Bool, get := Draft.outputSourceRange
      set := fun draft found => { draft with outputSourceRange := some found }
      meaning := booleanOf },
    { name := "whitespace", Value := Option String, get := Draft.whitespace
      set := fun draft found => { draft with whitespace := some found }
      meaning := optionalOf textOf },
    { name := "preserveWhitespace", Value := Option Bool, get := Draft.preserveWhitespace
      set := fun draft found => { draft with preserveWhitespace := some found }
      meaning := optionalOf booleanOf },
    { name := "delimiters", Value := Option (String × String), get := Draft.delimiters
      set := fun draft found => { draft with delimiters := some found }
      meaning := optionalOf (pairOf levels) },
    { name := "comments", Value := Option Bool, get := Draft.comments
      set := fun draft found => { draft with comments := some found }
      meaning := optionalOf booleanOf }]
  other key tree := (kept (tree.json? levels)).map fun found draft =>
    { draft with extra := (key, found) :: draft.extra }

theorem table_lawful (levels : Nat) : (table levels).Lawful where
  get_set := by simp [table]
  apart := by simp [table, Table.Apart]
  get_other slot member key tree change known state := by
    obtain ⟨found, -, rfl⟩ := map_eq_ok_iff.mp known
    revert slot member
    simp [table]

theorem collects (levels : Nat) : (table levels).Collects levels Draft.extra where
  extra_set := by simp [table]
  other_eq key tree := ⟨_, rfl, fun _ _ => rfl⟩

theorem fieldsRead (levels : Nat) : FieldsRead (fields levels) (table levels).step := by
  refine (table_lawful levels).fieldsRead ?_ ?_
  · simp only [table, List.forall_mem_cons]
    exact ⟨⟨_, reads_boolean, fun state => by rw [fields]⟩,
      ⟨_, reads_text.optional, fun state => by rw [fields]⟩,
      ⟨_, reads_boolean.optional, fun state => by rw [fields]⟩,
      ⟨_, (reads_pairOfTexts levels).optional, fun state => by rw [fields]⟩,
      ⟨_, reads_boolean.optional, fun state => by rw [fields]⟩, by simp⟩
  · intro key unnamed state
    simp only [table, Table.names, List.map_cons, List.map_nil, List.mem_cons, not_or] at unnamed
    refine ⟨_, ?_, Table.reads_collected levels (fun found draft =>
      { draft with extra := (key, found) :: draft.extra }) state⟩
    simp [fields, unnamed]

/-- What a state keeps besides the known options. -/
def rest (draft : Draft) : Dictionary Json := Json.dictionary draft.extra.reverse

/-- The options of a tree. -/
def meaning (levels : Nat) : Tree → Except ReadError CompilerOptions :=
  objectOf "CompilerOptions" levels (fun inner => (table inner).step) {} fun draft =>
    .ok draft.finish

theorem reads (levels : Nat) : Reads (decoder levels) (meaning levels) :=
  reads_object "CompilerOptions" levels fieldsRead {} _

theorem record (levels : Nat) :
    Record (table levels) levels {} rest fun draft => .ok draft.finish where
  lawful := table_lawful levels
  blank := by simp [table]
  rests := (collects levels).rests (table_lawful levels) rfl
  finish_congr agree same := by
    simp only [table, List.forall_mem_cons] at agree
    obtain ⟨outputSourceRange, whitespace, preserveWhitespace, delimiters, comments, -⟩ := agree
    unfold rest at same
    unfold Draft.finish
    rw [outputSourceRange, whitespace, preserveWhitespace, delimiters, comments, same]
  respects := by
    simp only [table, List.forall_mem_cons]
    exact ⟨respects_boolean, respects_text.optional, respects_boolean.optional,
      (respects_pair levels).optional, respects_boolean.optional, by simp⟩

/-- The members that are written for the known options. -/
def knownMembers (options : CompilerOptions) : List (String × Json) :=
  ("outputSourceRange", .bool options.outputSourceRange) ::
    optionalMember "whitespace" (options.whitespace.map .string) ++
    optionalMember "preserveWhitespace" (options.preserveWhitespace.map .bool) ++
    optionalMember "delimiters"
      (options.delimiters.map fun pair => .list [.string pair.1, .string pair.2]) ++
    optionalMember "comments" (options.comments.map .bool)

/-- The state that is read from what is written for options. -/
def written (options : CompilerOptions) (extra : List (String × Json)) : Draft where
  outputSourceRange := some options.outputSourceRange
  whitespace := options.whitespace.map some
  preserveWhitespace := options.preserveWhitespace.map some
  delimiters := options.delimiters.map some
  comments := options.comments.map some
  extra := extra

theorem finish_written (options : CompilerOptions) (draft : Draft)
    (same : options.extra = rest draft) : (written options draft.extra).finish = options := by
  obtain ⟨outputSourceRange, whitespace, preserveWhitespace, delimiters, comments, extra⟩ := options
  obtain rfl : extra = rest draft := same
  unfold Draft.finish written
  cases whitespace <;> cases preserveWhitespace <;> cases delimiters <;> cases comments <;> rfl

/-- What is written for options is read as these options. -/
theorem rewrites {levels : Nat} {draft : Draft} (sourced : (table levels).Sourced draft) :
    Rewrites (table levels) levels rest (fun draft => .ok draft.finish) toJson draft
      draft.finish := by
  simp only [Table.Sourced, table, List.forall_mem_cons] at sourced
  obtain ⟨-, whitespace, preserveWhitespace, delimiters, comments, -⟩ := sourced
  have asText := (stable_text levels).of_join (null_ne_ok .string rfl) whitespace
  have asKept := (stable_boolean levels).of_join (null_ne_ok .boolean rfl) preserveWhitespace
  have asPair := (stable_pair levels).of_join (null_ne_ok .pair rfl) delimiters
  have asComments := (stable_boolean levels).of_join (null_ne_ok .boolean rfl) comments
  refine ⟨knownMembers draft.finish, written draft.finish draft.extra, rfl, ⟨?_, ?_, ?_⟩, ?_, rfl⟩
  · simp only [knownMembers, List.forall_mem_append, List.forall_mem_cons,
      forall_mem_optionalMember]
    simp [table, Table.names]
  · simp only [knownMembers, List.forall_mem_append, List.forall_mem_cons,
      forall_mem_optionalMember]
    exact ⟨⟨⟨⟨fits_bool levels _, fun value there => (asText value there).1⟩,
      fun value there => (asKept value there).1⟩, fun value there => (asPair value there).1⟩,
      fun value there => (asComments value there).1⟩
  · simp only [table, List.forall_mem_cons]
    refine ⟨?_, ?_, ?_, ?_, ?_, by simp⟩ <;> simp [knownMembers]
    · rfl
    · exact onlyOf_written fun value there => (asText value there).2
    · exact onlyOf_written fun value there => (asKept value there).2
    · exact onlyOf_written fun value there => (asPair value there).2
    · exact onlyOf_written fun value there => (asComments value there).2
  · exact congrArg Except.ok (finish_written draft.finish draft rfl)

theorem stable (levels : Nat) : Stable levels (meaning levels) toJson :=
  Record.stable "CompilerOptions" levels record fun sourced finished =>
    Except.ok.inj finished ▸ rewrites sourced

end RenderLink.CompilerOptions
