/-
**Dictionaries by their values.**

A dictionary is its entries in key order, so it is determined by the value of every key. The
dictionary of a list of pairs holds the last value of each key; when no key stands twice the order
of the pairs does not matter.

* `Dictionary.ext_find?`: **dictionaries with the same values are equal.**
* `Dictionary.find?_ofList`: the last pair of a key counts.
* `Dictionary.ofList_entries`: a dictionary is that of its own entries.
* `Dictionary.ofList_eq_of_samePairs`: pairs with different keys can be put in any order.
* `Dictionary.entries_ofList_map`: the order of the keys does not depend on the values.
-/

import Mathlib.Data.List.Nodup
import RenderLink.Dictionary

namespace RenderLink

variable {α : Type} {pairs others : List (String × α)} {key : String} {value : α}

/-! ### Pairs with different keys -/

/-- A value that is found belongs to a pair. -/
theorem mem_of_lookup (found : pairs.lookup key = some value) : (key, value) ∈ pairs := by
  obtain ⟨before, behind, rfl, -⟩ := List.lookup_eq_some_iff.mp found
  exact List.mem_append_right _ List.mem_cons_self

/-- Where no key stands twice, each pair holds the value of its key. -/
theorem lookup_of_mem (distinct : (pairs.map Prod.fst).Nodup) (member : (key, value) ∈ pairs) :
    pairs.lookup key = some value := by
  induction pairs with
  | nil => cases member
  | cons head rest ih =>
    rw [List.map_cons, List.nodup_cons] at distinct
    rcases List.mem_cons.mp member with rfl | later
    · exact List.lookup_cons_self
    · have differ : (key == head.1) = false := beq_false_of_ne fun same =>
        distinct.1 (same ▸ List.mem_map_of_mem later)
      rw [List.lookup_cons, differ]
      exact ih distinct.2 later

/-- Where no key stands twice, the order of the pairs does not matter. -/
theorem lookup_perm (distinct : (pairs.map Prod.fst).Nodup) (perm : pairs.Perm others) :
    pairs.lookup key = others.lookup key := by
  have alsoDistinct : (others.map Prod.fst).Nodup := (perm.map Prod.fst).nodup_iff.mp distinct
  refine Option.ext fun value => ⟨fun found => ?_, fun found => ?_⟩
  · exact lookup_of_mem alsoDistinct (perm.mem_iff.mp (mem_of_lookup found))
  · exact lookup_of_mem distinct (perm.mem_iff.mpr (mem_of_lookup found))

/-- The same pairs, in the same order or with different keys in any order. -/
def SamePairs (pairs others : List (String × α)) : Prop :=
  pairs = others ∨ (pairs.Perm others ∧ (pairs.map Prod.fst).Nodup)

namespace Dictionary

/-! ### Entries -/

/-- No key stands twice among the entries. -/
theorem nodup_keys (dictionary : Dictionary α) : (dictionary.entries.map Prod.fst).Nodup := by
  rw [List.Nodup, List.pairwise_map]
  refine dictionary.sorted.imp ?_
  intro first second below same
  rw [same] at below
  exact String.lt_irrefl _ below

theorem mem_entries_iff (dictionary : Dictionary α) :
    (key, value) ∈ dictionary.entries ↔ dictionary.find? key = some value :=
  ⟨lookup_of_mem dictionary.nodup_keys, mem_of_lookup⟩

/-- **Dictionaries with the same values are equal.** -/
theorem ext_find? {first second : Dictionary α}
    (same : ∀ key, first.find? key = second.find? key) : first = second := by
  have members : ∀ pair, pair ∈ first.entries ↔ pair ∈ second.entries := fun ⟨key, value⟩ => by
    rw [mem_entries_iff, mem_entries_iff, same]
  have perm : first.entries.Perm second.entries :=
    (List.perm_ext_iff_of_nodup (List.Nodup.of_map _ first.nodup_keys)
      (List.Nodup.of_map _ second.nodup_keys)).mpr members
  have equal : first.entries = second.entries :=
    perm.eq_of_pairwise (fun _ _ _ _ below above => absurd above (String.lt_asymm below))
      first.sorted second.sorted
  cases first
  cases second
  cases equal
  rfl

/-! ### The dictionary of a list of pairs -/

/-- The values after further pairs are put in. -/
theorem find?_foldl (dictionary : Dictionary α) (pairs : List (String × α)) (key : String) :
    (pairs.foldl (fun dictionary pair => dictionary.insert pair.1 pair.2) dictionary).find? key =
      (pairs.reverse.lookup key).or (dictionary.find? key) := by
  induction pairs generalizing dictionary with
  | nil => rfl
  | cons pair pairs ih =>
    obtain ⟨name, value⟩ := pair
    rw [List.foldl_cons, ih, List.reverse_cons, List.lookup_append, Option.or_assoc]
    congr 1
    by_cases same : key = name
    · subst same
      rw [find?_insert_self, List.lookup_cons_self, Option.some_or]
    · rw [find?_insert_of_ne dictionary value same, List.lookup_cons, beq_false_of_ne same]
      rfl

/-- The last pair of a key counts. -/
theorem find?_ofList (pairs : List (String × α)) (key : String) :
    (ofList pairs).find? key = pairs.reverse.lookup key := by
  rw [ofList, find?_foldl, show (empty : Dictionary α).find? key = none from rfl, Option.or_none]

/-- What stands in the dictionary of a list of pairs is one of them. -/
theorem mem_of_mem_ofList (member : (key, value) ∈ (ofList pairs).entries) :
    (key, value) ∈ pairs := by
  rw [mem_entries_iff, find?_ofList] at member
  exact List.mem_reverse.mp (mem_of_lookup member)

/-- A dictionary is that of its own entries. -/
theorem ofList_entries (dictionary : Dictionary α) : ofList dictionary.entries = dictionary := by
  refine ext_find? fun key => ?_
  rw [find?_ofList, find?,
    lookup_perm dictionary.nodup_keys (List.reverse_perm dictionary.entries).symm]

/-- Pairs with different keys can be put in any order. -/
theorem ofList_eq_of_samePairs (same : SamePairs pairs others) : ofList pairs = ofList others := by
  rcases same with rfl | ⟨perm, distinct⟩
  · rfl
  refine ext_find? fun key => ?_
  have reversed : (pairs.reverse.map Prod.fst).Nodup := by
    rw [List.map_reverse]
    exact List.nodup_reverse.mpr distinct
  rw [find?_ofList, find?_ofList]
  exact lookup_perm reversed
    ((List.reverse_perm pairs).trans (perm.trans (List.reverse_perm others).symm))

/-! ### Values under a function -/

variable {β : Type}

/-- A pair whose value is taken under a function. -/
def mapValue (f : α → β) (pair : String × α) : String × β := (pair.1, f pair.2)

theorem map_insertSorted (f : α → β) (key : String) (value : α) (pairs : List (String × α)) :
    (insertSorted key value pairs).map (mapValue f) =
      insertSorted key (f value) (pairs.map (mapValue f)) := by
  induction pairs with
  | nil => rfl
  | cons head rest ih =>
    obtain ⟨other, kept⟩ := head
    rw [List.map_cons, mapValue, insertSorted, insertSorted]
    split
    · rfl
    · split
      · rw [List.map_cons, ih, mapValue]
      · rfl

/-- The order of the keys does not depend on the values. -/
theorem entries_ofList_map (f : α → β) (pairs : List (String × α)) :
    (ofList (pairs.map (mapValue f))).entries = (ofList pairs).entries.map (mapValue f) := by
  have step : ∀ (dictionary : Dictionary α) (image : Dictionary β),
      image.entries = dictionary.entries.map (mapValue f) →
        ((pairs.map (mapValue f)).foldl (fun dictionary pair => dictionary.insert pair.1 pair.2)
          image).entries =
        (pairs.foldl (fun dictionary pair => dictionary.insert pair.1 pair.2)
          dictionary).entries.map (mapValue f) := by
    induction pairs with
    | nil => exact fun dictionary image same => same
    | cons pair pairs ih =>
      intro dictionary image same
      rw [List.map_cons, List.foldl_cons, List.foldl_cons]
      refine ih _ _ ?_
      show insertSorted pair.1 (f pair.2) image.entries = _
      rw [same, ← map_insertSorted]
      rfl
  exact step empty empty rfl

end Dictionary

end RenderLink
