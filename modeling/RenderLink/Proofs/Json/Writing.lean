/-
**The tree of a written value.**

The text that is written for a value without doubles joins the words of a tree, and the value of
that tree is the value written. A tree whose numbers are plain integers has such a value, so what is
read from it can be written and is read again as it was.

* `flatten_words`, `spells_toText`: **the text of a value spells its tree.**
* `length_lt_toText`: a string that an object has last for a key is shorter than the object's text.
* `json?_tree`: **the tree of a value has that value.**
* `parse_toText`: **a written value is read as itself.**
* `fits_of_json?`: plain integers are read as integers.
* `valuesOf_memberTrees`, `othersOf_memberTrees`: members by name, and the others, as they are
  written.
-/

import RenderLink.Json.Printer
import RenderLink.Proofs.Json.IntegerText
import RenderLink.Proofs.Json.Record
import RenderLink.Proofs.Json.Tidy

namespace RenderLink.Json

open Decimal

/-! ### Trees of values -/

/-- How an integer is written. A double, which is left out of what follows, stands as zero. -/
def Number.text : Number → NumberText
  | .natural value => .ofNatural value.toNat
  | .negative below => .ofNegative (below + 1)
  | .double _ => .ofNatural 0

mutual

/-- The tree of the text that is written for a value. -/
def tree : Json → Tree
  | .null => .null
  | .bool value => .bool value
  | .number value => .number value.text
  | .string value => .string (.ofText value)
  | .list items => .list (itemTrees items)
  | .object members => .object (memberTrees members)
termination_by structural value => value

def itemTrees : List Json → List Tree
  | [] => []
  | item :: items => item.tree :: itemTrees items
termination_by structural items => items

def memberTrees : List (String × Json) → List (StringText × Tree)
  | [] => []
  | (key, value) :: members => (.ofText key, value.tree) :: memberTrees members
termination_by structural members => members

end

theorem itemTrees_eq (items : List Json) : itemTrees items = items.map tree := by
  induction items with
  | nil => rfl
  | cons item items ih => rw [itemTrees, ih, List.map_cons]

theorem memberTrees_eq (members : List (String × Json)) :
    memberTrees members = members.map fun member => (.ofText member.1, member.2.tree) := by
  induction members with
  | nil => rfl
  | cons member members ih => rw [memberTrees, ih, List.map_cons]

/-! ### Texts of trees -/

theorem Number.chars_text {number : Number} (isInteger : number.IsInteger) :
    number.text.chars = number.render := by
  cases number with
  | double value => exact isInteger.elim
  | _ => rfl

/-- Words of items that are written one by one. -/
theorem flatten_itemWords {items : List Json}
    (each : ∀ item ∈ items, item.tree.words.flatten = item.render) (first : Bool) :
    (itemWords first (itemTrees items)).flatten =
      if items = [] then [] else (lead first).flatten ++ renderItems items := by
  induction items generalizing first with
  | nil => rfl
  | cons item items ih =>
    have behind := ih (fun other later => each other (List.mem_cons_of_mem _ later)) false
    rw [itemTrees, itemWords, List.flatten_append, List.flatten_append,
      each item List.mem_cons_self, behind, if_neg (List.cons_ne_nil _ _)]
    cases items with
    | nil => rw [if_pos rfl, List.append_nil, renderItems]
    | cons other items =>
      show _ = (lead first).flatten ++ (item.render ++ ',' :: renderItems (other :: items))
      rw [if_neg (List.cons_ne_nil _ _)]
      rfl

/-- Words of members that are written one by one. -/
theorem flatten_memberWords {members : List (String × Json)}
    (each : ∀ member ∈ members, member.2.tree.words.flatten = member.2.render) (first : Bool) :
    (memberWords first (memberTrees members)).flatten =
      if members = [] then [] else (lead first).flatten ++ renderMembers members := by
  induction members generalizing first with
  | nil => rfl
  | cons member members ih =>
    obtain ⟨key, value⟩ := member
    have behind := ih (fun other later => each other (List.mem_cons_of_mem _ later)) false
    have written : value.tree.words.flatten = value.render := each _ List.mem_cons_self
    have named : (StringText.ofText key).word = renderString key.toList := rfl
    rw [memberTrees, memberWords, List.flatten_append, List.flatten_cons, List.flatten_cons,
      List.flatten_append, written, behind, named, if_neg (List.cons_ne_nil _ _)]
    cases members with
    | nil => rw [if_pos rfl, List.append_nil, renderMembers]; simp
    | cons other members =>
      show _ = (lead first).flatten ++ (renderString key.toList ++ ':' :: value.render ++
        ',' :: renderMembers (other :: members))
      rw [if_neg (List.cons_ne_nil _ _)]
      simp

/-- **The words of a written value make its text.** -/
theorem flatten_words {levels : Nat} {value : Json} (fits : value.Fits levels) :
    value.tree.words.flatten = value.render := by
  induction levels generalizing value with
  | zero =>
    cases value with
    | null => rfl
    | bool value => cases value <;> rfl
    | number number => exact (List.append_nil _).trans (Number.chars_text fits)
    | string text => exact List.append_nil _
    | _ => exact fits.elim
  | succ levels ih =>
    cases value with
    | null => rfl
    | bool value => cases value <;> rfl
    | number number => exact (List.append_nil _).trans (Number.chars_text fits)
    | string text => exact List.append_nil _
    | list items =>
      have inside := flatten_itemWords (fun item member => ih (fits item member)) true
      rw [tree, Tree.words, List.flatten_cons, List.flatten_append, inside, render]
      cases items <;> simp [renderItems]
    | object members =>
      have inside := flatten_memberWords (fun member present => ih (fits member present)) true
      rw [tree, Tree.words, List.flatten_cons, List.flatten_append, inside, render]
      cases members <;> simp [renderMembers]

/-- **The text of a value spells its tree.** -/
theorem spells_toText {levels : Nat} {value : Json} (fits : value.Fits levels) :
    value.tree.Spells value.toText := by
  unfold Tree.Spells toText
  rw [String.toList_ofList, ← flatten_words fits]
  exact Spaced.flatten _

/-! ### Lengths of texts -/

/-- The text of a member's value is part of that of the members. -/
theorem length_render_le {members : List (String × Json)} {key : String} {value : Json}
    (present : (key, value) ∈ members) : value.render.length ≤ (renderMembers members).length := by
  induction members with
  | nil => exact absurd present List.not_mem_nil
  | cons member members ih =>
    obtain ⟨name, found⟩ := member
    cases members with
    | nil =>
      obtain ⟨rfl, rfl⟩ := Prod.mk.inj (List.mem_singleton.mp present)
      simp only [renderMembers, List.length_append, List.length_cons]
      omega
    | cons next others =>
      simp only [renderMembers, List.length_append, List.length_cons]
      rcases List.mem_cons.mp present with same | later
      · obtain ⟨rfl, rfl⟩ := Prod.mk.inj same
        omega
      · have := ih later
        omega

/-- **A string that an object has last for a key is shorter than the object's text.** -/
theorem length_lt_toText {members : List (String × Json)} {key text : String}
    (last : (named key members).getLast? = some (.string text)) :
    text.length < (Json.object members).tidy.toText.length := by
  have inside := length_render_le (mem_dictionary last)
  have longer := length_lt_renderString text.toList
  have whole : (Json.object members).tidy.toText.length =
      (renderMembers (dictionary members).entries).length + 2 := by
    rw [tidy_object, toText, String.length_ofList, render, List.length_append, List.length_cons]
    rfl
  rw [tidy, render] at inside
  rw [whole, ← String.length_toList]
  omega

/-! ### Values of trees -/

theorem Number.value?_text {number : Number} (isInteger : number.IsInteger) :
    number.text.value? = some number := by
  cases number with
  | natural value =>
    rw [text, NumberText.value?_ofNatural value.toNat_lt, UInt64.ofNat_toNat]
  | negative below => exact NumberText.value?_ofNegative below
  | double value => exact isInteger.elim

/-- **The tree of a value has that value.** -/
theorem json?_tree {levels : Nat} {value : Json} (fits : value.Fits levels) :
    value.tree.json? levels = some value := by
  induction levels generalizing value with
  | zero =>
    cases value with
    | number number => rw [tree, Tree.json?, Number.value?_text fits]; rfl
    | string text => rw [tree, Tree.json?, StringText.value?_ofText]; rfl
    | list items => exact fits.elim
    | object members => exact fits.elim
    | _ => rfl
  | succ levels ih =>
    cases value with
    | number number => rw [tree, Tree.json?, Number.value?_text fits]; rfl
    | string text => rw [tree, Tree.json?, StringText.value?_ofText]; rfl
    | list items =>
      have each : (items.map tree).mapM (Tree.json? levels) = some items := by
        rw [mapM_eq_some_iff, List.forall₂_map_left_iff]
        exact List.forall₂_same.mpr fun item member => ih (fits item member)
      rw [tree, itemTrees_eq, Tree.json?, each]
      rfl
    | object members =>
      have each : (memberTrees members).mapM (Tree.member? (Tree.json? levels)) = some members := by
        rw [memberTrees_eq, mapM_eq_some_iff, List.forall₂_map_left_iff]
        refine List.forall₂_same.mpr fun member present => ?_
        rw [Tree.member?, StringText.value?_ofText, ih (fits member present)]
        rfl
      rw [tree, Tree.json?, each]
      rfl
    | _ => rfl

/-- **A written value is read as itself.** -/
theorem parse_toText {value : Json} (fits : value.Fits nestingLimit) :
    parse value.toText = .ok value := by
  unfold parse
  rw [(reads_value nestingLimit).decode_eq (spells_toText fits), json?_tree fits, kept_some]

/-! ### Written members by name -/

/-- The values of a name among written members. -/
theorem valuesOf_memberTrees (name : String) (members : List (String × Json)) :
    valuesOf name (memberTrees members) = (named name members).map tree := by
  induction members with
  | nil => rfl
  | cons member members ih =>
    obtain ⟨key, value⟩ := member
    rw [memberTrees, named_cons]
    by_cases same : key = name
    · subst same
      rw [valuesOf_cons_self (StringText.value?_ofText _), if_pos rfl, ih, List.map_cons]
    · have skipped : (StringText.ofText key).value? ≠ some name := by
        rw [StringText.value?_ofText]
        exact fun found => same (Option.some.inj found)
      rw [valuesOf_cons_of_ne skipped, if_neg same, ih]

/-- The written members whose keys are not among the names. -/
theorem othersOf_memberTrees (names : List String) (members : List (String × Json)) :
    othersOf names (memberTrees members) =
      (members.filter fun member => member.1 ∉ names).map fun member =>
        (member.1, member.2.tree) := by
  induction members with
  | nil => rfl
  | cons member members ih =>
    obtain ⟨key, value⟩ := member
    rw [memberTrees]
    by_cases known : key ∈ names
    · rw [othersOf_cons_of_mem (StringText.value?_ofText _) known, ih,
        List.filter_cons_of_neg (by simpa using known)]
    · rw [othersOf_cons_of_not_mem (StringText.value?_ofText _) known, ih,
        List.filter_cons_of_pos (by simpa using known), List.map_cons]

/-- Every key of written members has a value. -/
theorem keys_of_memberTrees (members : List (String × Json)) :
    ∀ member ∈ memberTrees members, ∃ key, member.1.value? = some key := by
  rw [memberTrees_eq]
  intro member present
  obtain ⟨source, -, rfl⟩ := List.mem_map.mp present
  exact ⟨source.1, StringText.value?_ofText _⟩

/-- Written members are read one by one. -/
theorem readMembers_memberTrees_cons {σ : Type} (step : Step σ) (state : σ) (key : String)
    (value : Json) (members : List (String × Json)) :
    readMembers step state (memberTrees ((key, value) :: members)) =
      step state key value.tree >>= fun grown => readMembers step grown (memberTrees members) := by
  rw [memberTrees, readMembers, StringText.value?_ofText, kept_some]
  rfl

/-- Members that were written are collected again. -/
theorem collected_trees {levels : Nat} {members : List (String × Json)}
    (fits : ∀ member ∈ members, member.2.Fits levels) :
    collected levels (members.map fun member => (member.1, member.2.tree)) = members := by
  induction members with
  | nil => rfl
  | cons member members ih =>
    have first : member.2.tree.json? levels = some member.2 :=
      json?_tree (fits member List.mem_cons_self)
    have behind := ih fun other later => fits other (List.mem_cons_of_mem _ later)
    unfold collected at behind ⊢
    rw [List.map_cons, List.filterMap_cons, first, behind]
    rfl

/-! ### Plain integers -/

/-- A number that is written as an integer is: its digits, with a sign if it is below zero. -/
def NumberText.IsPlain (text : NumberText) : Prop :=
  (∃ value : UInt64, text = .ofNatural value.toNat) ∨
    ∃ below : Fin 0x8000000000000000, text = .ofNegative (below + 1)

theorem NumberText.IsPlain.isInteger {text : NumberText} {number : Number} (plain : text.IsPlain)
    (known : text.value? = some number) : number.IsInteger := by
  rcases plain with ⟨value, rfl⟩ | ⟨below, rfl⟩
  · rw [value?_ofNatural value.toNat_lt] at known
    cases known
    trivial
  · rw [value?_ofNegative] at known
    cases known
    trivial

mutual

/-- The numbers of a tree, in their order. -/
def Tree.numbers : Tree → List NumberText
  | .null | .bool _ | .string _ => []
  | .number text => [text]
  | .list items => itemNumbers items
  | .object members => memberNumbers members
termination_by structural tree => tree

def itemNumbers : List Tree → List NumberText
  | [] => []
  | item :: items => item.numbers ++ itemNumbers items
termination_by structural items => items

def memberNumbers : List (StringText × Tree) → List NumberText
  | [] => []
  | (_, value) :: members => value.numbers ++ memberNumbers members
termination_by structural members => members

end

/-- Every number of a tree is a plain integer that fits 64 bits. -/
def Tree.PlainIntegers (tree : Tree) : Prop := ∀ text ∈ tree.numbers, text.IsPlain

/-- A tree without a number is plain. -/
theorem plain_of_no_number {tree : Tree} (none : tree.numbers = []) : tree.PlainIntegers := by
  intro text present
  rw [none] at present
  cases present

theorem Tree.PlainIntegers.item {items : List Tree} {item : Tree}
    (plain : (Tree.list items).PlainIntegers) (member : item ∈ items) : item.PlainIntegers := by
  have inside : ∀ text ∈ item.numbers, text ∈ itemNumbers items := by
    clear plain
    induction items with
    | nil => cases member
    | cons first items ih =>
      intro text found
      rw [itemNumbers, List.mem_append]
      rcases List.mem_cons.mp member with rfl | later
      · exact .inl found
      · exact .inr (ih later text found)
  exact fun text found => plain text (inside text found)

theorem Tree.PlainIntegers.member {members : List (StringText × Tree)} {member : StringText × Tree}
    (plain : (Tree.object members).PlainIntegers) (present : member ∈ members) :
    member.2.PlainIntegers := by
  have inside : ∀ text ∈ member.2.numbers, text ∈ memberNumbers members := by
    clear plain
    induction members with
    | nil => cases present
    | cons first members ih =>
      intro text found
      rw [memberNumbers, List.mem_append]
      rcases List.mem_cons.mp present with rfl | later
      · exact .inl found
      · exact .inr (ih later text found)
  exact fun text found => plain text (inside text found)

/-- **Plain integers are read as integers.** -/
theorem fits_of_json? {levels : Nat} {tree : Tree} {value : Json} (plain : tree.PlainIntegers)
    (known : tree.json? levels = some value) : value.Fits levels := by
  induction levels generalizing tree value with
  | zero =>
    cases tree with
    | number text =>
      obtain ⟨number, found, rfl⟩ := Option.map_eq_some_iff.mp known
      exact (plain text (List.mem_singleton.mpr rfl)).isInteger found
    | string text =>
      obtain ⟨found, -, rfl⟩ := Option.map_eq_some_iff.mp known
      trivial
    | list items => cases known
    | object members => cases known
    | _ => cases known; trivial
  | succ levels ih =>
    cases tree with
    | number text =>
      obtain ⟨number, found, rfl⟩ := Option.map_eq_some_iff.mp known
      exact (plain text (List.mem_singleton.mpr rfl)).isInteger found
    | string text =>
      obtain ⟨found, -, rfl⟩ := Option.map_eq_some_iff.mp known
      trivial
    | list items =>
      obtain ⟨values, each, rfl⟩ := Option.map_eq_some_iff.mp known
      intro item member
      obtain ⟨source, present, found⟩ := exists_source_of_mapM each member
      exact ih (plain.item present) found
    | object members =>
      obtain ⟨values, each, rfl⟩ := Option.map_eq_some_iff.mp known
      intro item member
      obtain ⟨source, present, found⟩ := exists_source_of_mapM each member
      obtain ⟨key, -, valued⟩ := Option.bind_eq_some_iff.mp found
      obtain ⟨inner, read, rfl⟩ := Option.map_eq_some_iff.mp valued
      exact ih (plain.member present) read
    | _ => cases known; trivial

end RenderLink.Json
