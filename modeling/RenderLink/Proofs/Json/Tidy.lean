/-
**Values as a dictionary sees them.**

The tidy form of a value has the members of its objects in key order and the last of repeated keys,
so two objects whose members are the same up to their order have one tidy form (`Alike`). A tidy
value is left as it is, and a value that can be written and read back stays one (`Fits`).

* `tidy_object`: the members of a tidy object are the entries of a dictionary.
* `tidy_tidy`: **tidying twice is tidying once.**
* `Alike.tidy_eq`: alike values have the same tidy form.
* `Fits.tidy`: tidying adds no number and no level of nesting.
-/

import RenderLink.Json.Value
import RenderLink.Proofs.Dictionary

namespace RenderLink.Json

/-! ### Tidy objects -/

/-- A member with its value tidied. -/
def tidied (member : String × Json) : String × Json := (member.1, member.2.tidy)

theorem dictionary_eq (members : List (String × Json)) :
    dictionary members = Dictionary.ofList (members.map tidied) := rfl

theorem tidyItems_eq (items : List Json) : tidyItems items = items.map tidy := by
  induction items with
  | nil => rfl
  | cons item items ih => rw [tidyItems, ih, List.map_cons]

/-- Members are put one after another into the entries of a dictionary. -/
theorem tidyMembers_eq (done : Dictionary Json) (members : List (String × Json)) :
    tidyMembers done.entries members =
      ((members.map tidied).foldl (fun dictionary pair => dictionary.insert pair.1 pair.2)
        done).entries := by
  induction members generalizing done with
  | nil => rfl
  | cons member members ih =>
    obtain ⟨key, value⟩ := member
    rw [tidyMembers, List.map_cons, List.foldl_cons]
    exact ih (done.insert key value.tidy)

/-- The members of a tidy object are the entries of a dictionary. -/
theorem tidy_object (members : List (String × Json)) :
    (Json.object members).tidy = .object (dictionary members).entries := by
  rw [tidy]
  exact congrArg Json.object (tidyMembers_eq ∅ members)

theorem tidy_list (items : List Json) : (Json.list items).tidy = .list (items.map tidy) := by
  rw [tidy, tidyItems_eq]

/-- What stands in the dictionary of an object is tidied from one of its members. -/
theorem exists_of_mem_dictionary {members : List (String × Json)} {key : String} {value : Json}
    (present : (key, value) ∈ (dictionary members).entries) :
    ∃ found, (key, found) ∈ members ∧ value = found.tidy := by
  obtain ⟨⟨name, found⟩, member, same⟩ :=
    List.mem_map.mp (Dictionary.mem_of_mem_ofList present)
  cases same
  exact ⟨found, member, rfl⟩

/-- The dictionary of entries that are tidy already is the one they belong to. -/
theorem dictionary_entries {entries : Dictionary Json}
    (unchanged : ∀ entry ∈ entries.entries, entry.2.tidy = entry.2) :
    dictionary entries.entries = entries := by
  have same : entries.entries.map tidied = entries.entries := by
    refine (List.map_congr_left fun entry member => ?_).trans (List.map_id _)
    show (entry.1, entry.2.tidy) = entry
    rw [unchanged entry member]
  rw [dictionary_eq, same, Dictionary.ofList_entries]

mutual

/-- **Tidying twice is tidying once.** -/
theorem tidy_tidy : ∀ value : Json, value.tidy.tidy = value.tidy
  | .null => rfl
  | .bool _ => rfl
  | .number _ => rfl
  | .string _ => rfl
  | .list items => by
    rw [tidy_list, tidy_list, List.map_map]
    exact congrArg Json.list (List.map_congr_left fun item member => tidy_items items item member)
  | .object members => by
    rw [tidy_object, tidy_object, dictionary_entries]
    intro entry member
    obtain ⟨found, present, same⟩ := exists_of_mem_dictionary member
    rw [same]
    exact tidy_members members _ present

theorem tidy_items : ∀ (items : List Json), ∀ item ∈ items, item.tidy.tidy = item.tidy
  | [], _, absent => absurd absent List.not_mem_nil
  | first :: items, item, member => by
    rcases List.mem_cons.mp member with same | later
    · rw [same]
      exact tidy_tidy first
    · exact tidy_items items item later

theorem tidy_members : ∀ (members : List (String × Json)), ∀ member ∈ members,
    member.2.tidy.tidy = member.2.tidy
  | [], _, absent => absurd absent List.not_mem_nil
  | (_, value) :: members, member, present => by
    rcases List.mem_cons.mp present with same | later
    · rw [same]
      exact tidy_tidy value
    · exact tidy_members members member later

end

/-! ### Members by name -/

/-- The values of a key in an object. -/
def named (key : String) (members : List (String × Json)) : List Json :=
  (members.filter fun member => member.1 = key).map Prod.snd

@[simp] theorem named_nil (key : String) : named key [] = [] := rfl

@[simp] theorem named_cons (key name : String) (value : Json) (members : List (String × Json)) :
    named key ((name, value) :: members) =
      if name = key then value :: named key members else named key members := by
  by_cases same : name = key <;> simp [named, same]

@[simp] theorem named_append (key : String) (members others : List (String × Json)) :
    named key (members ++ others) = named key members ++ named key others := by
  simp [named]

@[simp] theorem named_optionalMember (key name : String) (value : Option Json) :
    named key (optionalMember name value) = if name = key then value.toList else [] := by
  cases value with
  | none => simp [optionalMember]
  | some found => by_cases same : name = key <;> simp [optionalMember, same]

theorem forall_mem_optionalMember {α : Type} {key : String} {toJson : α → Json} {value : Option α}
    {P : String × Json → Prop} :
    (∀ member ∈ optionalMember key (value.map toJson), P member) ↔
      ∀ found, value = some found → P (key, toJson found) := by
  cases value <;> simp [optionalMember]

theorem keys_optionalMember (key : String) (value : Option Json) :
    ((optionalMember key value).map Prod.fst).Sublist [key] := by
  cases value <;> simp [optionalMember]

theorem named_eq (key : String) (members : List (String × Json)) :
    named key members =
      members.filterMap fun entry => if entry.1 = key then some entry.2 else none := by
  induction members with
  | nil => rfl
  | cons member members ih =>
    rw [named_cons, List.filterMap_cons, ih]
    by_cases same : member.1 = key <;> simp [same]

theorem named_tidied (key : String) (members : List (String × Json)) :
    named key (members.map tidied) = (named key members).map tidy := by
  unfold named
  rw [List.filter_map, List.map_map, List.map_map]
  rfl

/-- From the end a key is found with its last value. -/
theorem lookup_reverse (key : String) (members : List (String × Json)) :
    members.reverse.lookup key = (named key members).getLast? := by
  induction members with
  | nil => rfl
  | cons member members ih =>
    obtain ⟨name, value⟩ := member
    rw [List.reverse_cons, List.lookup_append, ih, named_cons]
    by_cases same : name = key
    · subst same
      rw [if_pos rfl, List.getLast?_cons, List.lookup_cons_self]
      cases (named name members).getLast? <;> rfl
    · rw [if_neg same, List.lookup_cons, beq_false_of_ne (Ne.symm same)]
      exact Option.or_none

/-- The tidy form of an object has the last value of each key. -/
theorem mem_dictionary {members : List (String × Json)} {key : String} {value : Json}
    (last : (named key members).getLast? = some value) :
    (key, value.tidy) ∈ (dictionary members).entries := by
  rw [Dictionary.mem_entries_iff, dictionary_eq, Dictionary.find?_ofList, lookup_reverse,
    named_tidied, List.getLast?_map, last]
  rfl

theorem mem_named {key : String} {value : Json} {members : List (String × Json)} :
    value ∈ named key members ↔ (key, value) ∈ members := by
  simp [named]

/-- A key that no member has is not found. -/
theorem named_eq_nil {key : String} {members : List (String × Json)}
    (absent : ∀ member ∈ members, member.1 ≠ key) : named key members = [] := by
  have none : (members.filter fun member => member.1 = key) = [] :=
    List.filter_eq_nil_iff.mpr fun member present => by simpa using absent member present
  rw [named, none, List.map_nil]

/-! ### Alike values -/

/-- Values that are the same, or objects whose members are, up to the order of members. -/
def Alike : Json → Json → Prop
  | .object members, .object others => SamePairs (members.map tidied) (others.map tidied)
  | value, other => value.tidy = other.tidy

theorem Alike.refl (value : Json) : Alike value value := by
  cases value with
  | object members => exact .inl rfl
  | _ => rfl

/-- Alike values have the same tidy form. -/
theorem Alike.tidy_eq {value other : Json} (alike : Alike value other) :
    value.tidy = other.tidy := by
  unfold Alike at alike
  split at alike
  · rw [tidy_object, tidy_object, dictionary_eq, dictionary_eq,
      Dictionary.ofList_eq_of_samePairs alike]
  · exact alike

/-! ### Values that can be written and read back -/

/-- An integer is written in a way that is read as itself. -/
def Number.IsInteger : Number → Prop
  | .natural _ | .negative _ => True
  | .double _ => False

/-- The numbers of a value are integers, and its brackets nest within a number of levels. -/
def Fits : Nat → Json → Prop
  | _, .null | _, .bool _ | _, .string _ => True
  | _, .number written => written.IsInteger
  | 0, .list _ | 0, .object _ => False
  | levels + 1, .list items => ∀ item ∈ items, Fits levels item
  | levels + 1, .object members => ∀ member ∈ members, Fits levels member.2

/-- Tidying adds no number and no level of nesting. -/
theorem Fits.tidy {levels : Nat} {value : Json} (fits : Fits levels value) :
    Fits levels value.tidy := by
  induction levels generalizing value with
  | zero =>
    cases value with
    | list items => exact fits.elim
    | object members => exact fits.elim
    | _ => exact fits
  | succ levels ih =>
    cases value with
    | list items =>
      rw [tidy_list]
      show ∀ item ∈ items.map Json.tidy, Fits levels item
      intro item member
      obtain ⟨found, present, rfl⟩ := List.mem_map.mp member
      exact ih (fits found present)
    | object members =>
      rw [tidy_object]
      show ∀ entry ∈ (dictionary members).entries, Fits levels entry.2
      intro entry member
      obtain ⟨found, present, same⟩ := exists_of_mem_dictionary member
      rw [same]
      exact ih (fits _ present)
    | _ => exact fits

end RenderLink.Json
