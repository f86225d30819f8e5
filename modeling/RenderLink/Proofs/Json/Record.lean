/-
**Records by their fields.**

A record is read field by field: each field has a name, a place in the state, and a meaning for its
value; a key that names no field changes the state in a way of its own (`Table`). As no field
reaches into the place of another (`Table.Lawful`), what a place holds in the end depends on the
members with its name alone, wherever they stand: nothing when there is none, the value of the only
one, and two of them are an error (`onlyOf`).

* `Table.Lawful.step_eq_ok`, `Table.Lawful.step_eq_error`: what a step can do, and why it fails.
* `Table.Lawful.onlyOf_eq_get`: **what a place holds after the members.**
* `Table.Lawful.exists_readMembers`: members are read when each field and every other key can be.
* `Table.Collects.extra_readMembers`: the keys that name no field are collected in their order.
* `Table.Lawful.fails_of_readMembers`: why members are not read.
-/

import Mathlib.Data.List.Basic
import Mathlib.Data.List.Pairwise
import RenderLink.Proofs.Json.Shapes
import RenderLink.Proofs.Json.Skipping

namespace RenderLink.Json

variable {α σ : Type}

/-! ### Fields -/

/-- A field of a record: its name, its place in a state, and what its value means. -/
structure Slot (σ : Type) where
  name : String
  Value : Type
  get : σ → Option Value
  set : σ → Value → σ
  meaning : Tree → Except ReadError Value

/-- What a field makes of a value. -/
def Slot.read (slot : Slot σ) (state : σ) (tree : Tree) : Except ReadError σ :=
  match slot.get state with
  | some _ => .error (.duplicateField slot.name)
  | none => (slot.meaning tree).map (slot.set state)

theorem Slot.read_eq_ok_iff {slot : Slot σ} {state grown : σ} {tree : Tree} :
    slot.read state tree = .ok grown ↔
      slot.get state = none ∧
        ∃ value, slot.meaning tree = .ok value ∧ slot.set state value = grown := by
  unfold Slot.read
  cases slot.get state with
  | some value => simp
  | none => simp [map_eq_ok_iff]

theorem Slot.read_eq_error {slot : Slot σ} {state : σ} {tree : Tree} {error : ReadError}
    (failed : slot.read state tree = .error error) :
    slot.get state ≠ none ∨ slot.meaning tree = .error error := by
  unfold Slot.read at failed
  cases filled : slot.get state with
  | some value => exact .inl (Option.some_ne_none value)
  | none =>
    rw [filled] at failed
    exact .inr (map_eq_error_iff.mp failed)

/-- The fields of a record, and what any other key does to the state. -/
structure Table (σ : Type) where
  slots : List (Slot σ)
  other : String → Tree → Except ReadError (σ → σ)

namespace Table

/-- What a member does to the state. -/
def step (table : Table σ) : Step σ := fun state key tree =>
  match table.slots.find? fun slot => slot.name = key with
  | some slot => slot.read state tree
  | none => (table.other key tree).map fun change => change state

/-- Two fields with names and places of their own. -/
def Apart (first second : Slot σ) : Prop :=
  first.name ≠ second.name ∧ (∀ state value, first.get (second.set state value) = first.get state) ∧
    ∀ state value, second.get (first.set state value) = second.get state

/-- Every field has a name and a place of its own, which other keys do not reach. -/
structure Lawful (table : Table σ) : Prop where
  get_set : ∀ slot ∈ table.slots, ∀ state value, slot.get (slot.set state value) = some value
  apart : table.slots.Pairwise Apart
  get_other : ∀ slot ∈ table.slots, ∀ {key tree change}, table.other key tree = .ok change →
    ∀ state, slot.get (change state) = slot.get state

variable {table : Table σ} {slot other : Slot σ}

/-- Fields are the same or apart. -/
theorem Lawful.eq_or_apart (lawful : table.Lawful) (member : slot ∈ table.slots)
    (alsoMember : other ∈ table.slots) : slot = other ∨ Apart slot other := by
  by_cases same : slot = other
  · exact .inl same
  · have symmetric : Std.Symm (@Apart σ) := ⟨fun first second ⟨names, left, right⟩ =>
      ⟨names.symm, right, left⟩⟩
    exact .inr (lawful.apart.forall member alsoMember same)

/-- A field is known by its name. -/
theorem Lawful.find?_eq (lawful : table.Lawful) (member : slot ∈ table.slots) :
    (table.slots.find? fun other => other.name = slot.name) = some slot := by
  cases found : table.slots.find? fun other => other.name = slot.name with
  | none => simpa using List.find?_eq_none.mp found slot member
  | some other =>
    have named : other.name = slot.name := by simpa using List.find?_some found
    rcases lawful.eq_or_apart (List.mem_of_find?_eq_some found) member with rfl | ⟨differ, -⟩
    · rfl
    · exact absurd named differ

/-- The step of a field's name. -/
theorem Lawful.step_name (lawful : table.Lawful) (member : slot ∈ table.slots) (state : σ)
    (tree : Tree) : table.step state slot.name tree = slot.read state tree := by
  rw [step, lawful.find?_eq member]

/-- The step of a key that names no field. -/
theorem step_other {key : String} (unnamed : ∀ slot ∈ table.slots, slot.name ≠ key) (state : σ)
    (tree : Tree) :
    table.step state key tree = (table.other key tree).map fun change => change state := by
  have absent : (table.slots.find? fun slot => slot.name = key) = none :=
    List.find?_eq_none.mpr fun slot member => by simpa using unnamed slot member
  rw [step, absent]

/-- **What a step can do:** it fills the empty place of a field, or it changes the state as another
key does. -/
theorem Lawful.step_eq_ok (lawful : table.Lawful) {state grown : σ} {key : String} {tree : Tree}
    (stepped : table.step state key tree = .ok grown) :
    (∃ slot ∈ table.slots, slot.name = key ∧ slot.get state = none ∧
        ∃ value, slot.meaning tree = .ok value ∧ slot.set state value = grown) ∨
      (∀ slot ∈ table.slots, slot.name ≠ key) ∧
        ∃ change, table.other key tree = .ok change ∧ change state = grown := by
  by_cases named : ∃ found ∈ table.slots, found.name = key
  · obtain ⟨found, member, rfl⟩ := named
    rw [lawful.step_name member] at stepped
    exact .inl ⟨found, member, rfl, Slot.read_eq_ok_iff.mp stepped⟩
  · have unnamed : ∀ found ∈ table.slots, found.name ≠ key := fun found member same =>
      named ⟨found, member, same⟩
    rw [step_other unnamed] at stepped
    exact .inr ⟨unnamed, map_eq_ok_iff.mp stepped⟩

/-- Why a step fails: the place of the field is filled, or the value cannot be read. -/
theorem Lawful.step_eq_error (lawful : table.Lawful) {state : σ} {key : String} {tree : Tree}
    {error : ReadError} (failed : table.step state key tree = .error error) :
    (∃ slot ∈ table.slots, slot.name = key ∧
        (slot.get state ≠ none ∨ slot.meaning tree = .error error)) ∨
      (∀ slot ∈ table.slots, slot.name ≠ key) ∧ table.other key tree = .error error := by
  by_cases named : ∃ found ∈ table.slots, found.name = key
  · obtain ⟨found, member, rfl⟩ := named
    rw [lawful.step_name member] at failed
    exact .inl ⟨found, member, rfl, Slot.read_eq_error failed⟩
  · have unnamed : ∀ found ∈ table.slots, found.name ≠ key := fun found member same =>
      named ⟨found, member, same⟩
    rw [step_other unnamed] at failed
    exact .inr ⟨unnamed, map_eq_error_iff.mp failed⟩

/-- **What a step does to the place of a field.** -/
theorem Lawful.get_step (lawful : table.Lawful) {state grown : σ} {key : String} {tree : Tree}
    (stepped : table.step state key tree = .ok grown) (member : slot ∈ table.slots) :
    (slot.name = key ∧ slot.get state = none ∧
        ∃ value, slot.meaning tree = .ok value ∧ slot.get grown = some value) ∨
      (slot.name ≠ key ∧ slot.get grown = slot.get state) := by
  rcases lawful.step_eq_ok stepped with ⟨found, alsoMember, rfl, empty, value, read, rfl⟩ |
    ⟨unnamed, change, changed, rfl⟩
  · rcases lawful.eq_or_apart member alsoMember with rfl | ⟨differ, kept, -⟩
    · exact .inl ⟨rfl, empty, value, read, lawful.get_set slot member state value⟩
    · exact .inr ⟨differ, kept state value⟩
  · exact .inr ⟨unnamed slot member, lawful.get_other slot member changed state⟩

end Table

/-! ### Values by name -/

/-- The values of a key, in the order of the members. -/
def valuesOf (name : String) (members : List (StringText × Tree)) : List Tree :=
  members.filterMap fun member => if member.1.value? = some name then some member.2 else none

/-- What a tree holds for a field of a record: under its name in an object, at its place in a
list. -/
def part (name : String) (place : Nat) : Tree → List Tree
  | .object members => valuesOf name members
  | .list items => items[place]?.toList
  | _ => []

/-- What the values of a field mean, which may stand in a record once. -/
def onlyOf (name : String) (meaning : Tree → Except ReadError α) :
    List Tree → Except ReadError (Option α)
  | [] => .ok none
  | [tree] => (meaning tree).map some
  | _ => .error (.duplicateField name)

/-- The members whose keys are not among the names. -/
def othersOf (names : List String) (members : List (StringText × Tree)) : List (String × Tree) :=
  members.filterMap fun member =>
    member.1.value?.bind fun key => if key ∈ names then none else some (key, member.2)

variable {name key : String} {keyText : StringText} {tree : Tree}
  {members : List (StringText × Tree)}

theorem valuesOf_cons_self (known : keyText.value? = some name) :
    valuesOf name ((keyText, tree) :: members) = tree :: valuesOf name members := by
  simp [valuesOf, known]

theorem valuesOf_cons_of_ne (known : keyText.value? ≠ some name) :
    valuesOf name ((keyText, tree) :: members) = valuesOf name members := by
  simp [valuesOf, known]

/-- The values of a key are those of the members with it. -/
theorem mem_valuesOf : tree ∈ valuesOf name members ↔
    ∃ member ∈ members, member.1.value? = some name ∧ member.2 = tree := by
  simp [valuesOf]

/-- What a field means that holds a value: there is at most one, and it can be read. -/
theorem onlyOf_eq_ok_iff {meaning : Tree → Except ReadError α} {trees : List Tree}
    {value : Option α} :
    onlyOf name meaning trees = .ok value ↔
      (trees = [] ∧ value = none) ∨
        ∃ tree found, trees = [tree] ∧ meaning tree = .ok found ∧ value = some found := by
  match trees with
  | [] => simp [onlyOf, eq_comm]
  | [tree] =>
    rw [onlyOf]
    cases read : meaning tree <;> simp [read, Except.map, eq_comm]
  | _ :: _ :: _ => simp [onlyOf]

/-- The next item of a list is the only value of a field. -/
theorem nextItem_eq_ok_iff {β : Type} (name : String) {meaning : Tree → Except ReadError α}
    {next : Option α → List Tree → Except ReadError β} {items : List Tree} {value : β} :
    nextItem meaning next items = .ok value ↔
      ∃ found, onlyOf name meaning items[0]?.toList = .ok found ∧
        next found items.tail = .ok value := by
  cases items with
  | nil => simp [nextItem, onlyOf]
  | cons item items =>
    simp only [nextItem, bind_eq_ok_iff, List.getElem?_cons_zero, Option.toList_some, onlyOf,
      map_eq_ok_iff, List.tail_cons]
    constructor
    · rintro ⟨found, read, behind⟩
      exact ⟨some found, ⟨found, read, rfl⟩, behind⟩
    · rintro ⟨-, ⟨found, read, rfl⟩, behind⟩
      exact ⟨found, read, behind⟩

theorem nextItem_eq_error {β : Type} {meaning : Tree → Except ReadError α}
    {next : Option α → List Tree → Except ReadError β} {items : List Tree} {error : ReadError}
    (failed : nextItem meaning next items = .error error) :
    (∃ item ∈ items, items[0]? = some item ∧ meaning item = .error error) ∨
      ∃ found, next found items.tail = .error error := by
  cases items with
  | nil => exact .inr ⟨none, failed⟩
  | cons item items =>
    rcases bind_eq_error_iff.mp failed with refused | ⟨found, -, behind⟩
    · exact .inl ⟨item, List.mem_cons_self, rfl, refused⟩
    · exact .inr ⟨some found, behind⟩

theorem noItem_eq_ok_iff {items : List Tree} {value found : α} :
    noItem value items = .ok found ↔ items = [] ∧ value = found := by
  cases items <;> simp [noItem]

/-- A field that must be there has been read. -/
theorem required_eq_ok_iff {found : Option α} {value : α} :
    Decoder.required name found = .ok value ↔ found = some value := by
  cases found <;> simp [Decoder.required]

/-! ### Reading members -/

/-- Members are read one after another. -/
theorem readMembers_cons_eq_ok_iff {step : Step σ} {state final : σ} :
    readMembers step state ((keyText, tree) :: members) = .ok final ↔
      ∃ key grown, keyText.value? = some key ∧ step state key tree = .ok grown ∧
        readMembers step grown members = .ok final := by
  rw [readMembers]
  cases keyText.value? with
  | none => simp [kept, bind, Except.bind]
  | some key => cases stepped : step state key tree <;> simp [kept, bind, Except.bind, stepped]

namespace Table

variable {table : Table σ} {slot : Slot σ} {state final : σ}

/-- What the place of a field holds after the members, from what it held before. -/
theorem Lawful.get_readMembers (lawful : table.Lawful) (member : slot ∈ table.slots)
    (read : readMembers table.step state members = .ok final) :
    (slot.get state = none ∧
        onlyOf slot.name slot.meaning (valuesOf slot.name members) = .ok (slot.get final)) ∨
      (slot.get state ≠ none ∧ valuesOf slot.name members = [] ∧
        slot.get final = slot.get state) := by
  induction members generalizing state with
  | nil =>
    obtain rfl : state = final := Except.ok.inj read
    by_cases empty : slot.get state = none
    · exact .inl ⟨empty, by rw [empty]; rfl⟩
    · exact .inr ⟨empty, rfl, rfl⟩
  | cons head members ih =>
    obtain ⟨keyText, tree⟩ := head
    obtain ⟨key, grown, known, stepped, continued⟩ := readMembers_cons_eq_ok_iff.mp read
    have later := ih continued
    rcases lawful.get_step stepped member with ⟨rfl, empty, value, meant, stored⟩ | ⟨differ, same⟩
    · rcases later with ⟨blank, -⟩ | ⟨-, none, final⟩
      · rw [stored] at blank
        cases blank
      · refine .inl ⟨empty, onlyOf_eq_ok_iff.mpr (.inr ⟨tree, value, ?_, meant, ?_⟩)⟩
        · rw [valuesOf_cons_self known, none]
        · rw [final, stored]
    · have skipped : keyText.value? ≠ some slot.name := fun equal =>
        differ (Option.some.inj (equal.symm.trans known))
      rwa [valuesOf_cons_of_ne skipped, ← same]

/-- **What a place holds after the members that were read.** -/
theorem Lawful.onlyOf_eq_get (lawful : table.Lawful) (member : slot ∈ table.slots)
    (blank : slot.get state = none) (read : readMembers table.step state members = .ok final) :
    onlyOf slot.name slot.meaning (valuesOf slot.name members) = .ok (slot.get final) := by
  rcases lawful.get_readMembers member read with ⟨-, only⟩ | ⟨filled, -⟩
  · exact only
  · exact absurd blank filled

/-- Every key that is read has a value. -/
theorem keys_of_readMembers {step : Step σ} (read : readMembers step state members = .ok final) :
    ∀ member ∈ members, ∃ key, member.1.value? = some key := by
  induction members generalizing state with
  | nil => exact fun member absent => absurd absent List.not_mem_nil
  | cons head members ih =>
    obtain ⟨keyText, tree⟩ := head
    obtain ⟨key, grown, known, -, continued⟩ := readMembers_cons_eq_ok_iff.mp read
    intro member present
    rcases List.mem_cons.mp present with rfl | later
    · exact ⟨key, known⟩
    · exact ih continued member later

/-- Whether the members can fill the place of a field, where they have values for it. -/
def Fills (slot : Slot σ) (state : σ) (members : List (StringText × Tree)) : Prop :=
  (slot.get state = none ∧
    ∃ value, onlyOf slot.name slot.meaning (valuesOf slot.name members) = .ok value) ∨
  valuesOf slot.name members = []

/-- A member of another key leaves a field to the later ones. -/
theorem Fills.skip {grown : σ} (fills : Fills slot state ((keyText, tree) :: members))
    (known : keyText.value? = some key) (differ : slot.name ≠ key)
    (same : slot.get grown = slot.get state) : Fills slot grown members := by
  have skipped : keyText.value? ≠ some slot.name := fun equal =>
    differ (Option.some.inj (equal.symm.trans known))
  unfold Fills at fills ⊢
  rwa [valuesOf_cons_of_ne skipped, ← same] at fills

/-- A member of a field is the only one for it, and it can be read. -/
theorem Fills.take (fills : Fills slot state ((keyText, tree) :: members))
    (known : keyText.value? = some slot.name) :
    slot.get state = none ∧ (∃ value, slot.meaning tree = .ok value) ∧
      valuesOf slot.name members = [] := by
  unfold Fills at fills
  rw [valuesOf_cons_self known] at fills
  rcases fills with ⟨blank, value, only⟩ | absent
  · obtain ⟨none, -⟩ | ⟨one, found, single, meant, -⟩ := onlyOf_eq_ok_iff.mp only
    · cases none
    · obtain ⟨rfl, noOther⟩ := List.cons.inj single
      exact ⟨blank, ⟨found, meant⟩, noOther⟩
  · cases absent

/-- A member can be read when its field can be filled, or its other key can be read; the later ones
can fill the fields behind it. -/
theorem Lawful.exists_step (lawful : table.Lawful) (known : keyText.value? = some key)
    (fills : ∀ slot ∈ table.slots, Fills slot state ((keyText, tree) :: members))
    (other : (∀ slot ∈ table.slots, slot.name ≠ key) →
      ∃ change, table.other key tree = .ok change) :
    ∃ grown, table.step state key tree = .ok grown ∧
      ∀ slot ∈ table.slots, Fills slot grown members := by
  by_cases named : ∃ slot ∈ table.slots, slot.name = key
  · obtain ⟨slot, member, rfl⟩ := named
    obtain ⟨blank, ⟨value, meant⟩, noOther⟩ := (fills slot member).take known
    refine ⟨slot.set state value, ?_, fun found alsoMember => ?_⟩
    · rw [lawful.step_name member]
      exact Slot.read_eq_ok_iff.mpr ⟨blank, value, meant, rfl⟩
    · rcases lawful.eq_or_apart alsoMember member with rfl | ⟨differ, same, -⟩
      · exact .inr noOther
      · exact (fills found alsoMember).skip known differ (same state value)
  · have unnamed : ∀ slot ∈ table.slots, slot.name ≠ key := fun slot member same =>
      named ⟨slot, member, same⟩
    obtain ⟨change, changed⟩ := other unnamed
    refine ⟨change state, ?_, fun slot member => ?_⟩
    · rw [step_other unnamed, changed]
      rfl
    · exact (fills slot member).skip known (unnamed slot member)
        (lawful.get_other slot member changed state)

/-- **Members are read when each field can be filled, and every other key can be read.** -/
theorem Lawful.exists_readMembers (lawful : table.Lawful)
    (keys : ∀ member ∈ members, ∃ key, member.1.value? = some key)
    (fills : ∀ slot ∈ table.slots, Fills slot state members)
    (others : ∀ member ∈ members, ∀ key, member.1.value? = some key →
      (∀ slot ∈ table.slots, slot.name ≠ key) →
        ∃ change, table.other key member.2 = .ok change) :
    ∃ final, readMembers table.step state members = .ok final := by
  induction members generalizing state with
  | nil => exact ⟨state, rfl⟩
  | cons head members ih =>
    obtain ⟨keyText, tree⟩ := head
    obtain ⟨key, known⟩ := keys _ List.mem_cons_self
    obtain ⟨grown, stepped, laterFills⟩ :=
      lawful.exists_step known fills (others _ List.mem_cons_self key known)
    obtain ⟨final, read⟩ := ih (fun member later => keys member (List.mem_cons_of_mem _ later))
      laterFills fun member later => others member (List.mem_cons_of_mem _ later)
    exact ⟨final, readMembers_cons_eq_ok_iff.mpr ⟨_, _, known, stepped, read⟩⟩

/-! ### Other keys -/

/-- The names of the fields. -/
def names (table : Table σ) : List String := table.slots.map Slot.name

theorem names_ne {key : String} (unnamed : key ∉ table.names) :
    ∀ slot ∈ table.slots, slot.name ≠ key := fun slot member same =>
  unnamed (List.mem_map.mpr ⟨slot, member, same⟩)

/-- Other keys are collected with their values, the last one first. -/
structure Collects (table : Table σ) (levels : Nat) (extra : σ → List (String × Json)) : Prop where
  extra_set : ∀ slot ∈ table.slots, ∀ state value, extra (slot.set state value) = extra state
  other_eq : ∀ key tree, ∃ change : Json → σ → σ,
    table.other key tree = (kept (tree.json? levels)).map change ∧
      ∀ found state, extra (change found state) = (key, found) :: extra state

end Table

/-- The values of members, as far as they have one. -/
def collected (levels : Nat) (members : List (String × Tree)) : List (String × Json) :=
  members.filterMap fun member => (member.2.json? levels).map fun found => (member.1, found)

theorem othersOf_cons_of_mem {names : List String} (known : keyText.value? = some key)
    (named : key ∈ names) :
    othersOf names ((keyText, tree) :: members) = othersOf names members := by
  simp [othersOf, known, named]

theorem othersOf_cons_of_not_mem {names : List String} (known : keyText.value? = some key)
    (unnamed : key ∉ names) :
    othersOf names ((keyText, tree) :: members) = (key, tree) :: othersOf names members := by
  simp [othersOf, known, unnamed]

namespace Table

variable {table : Table σ} {slot : Slot σ} {state final : σ}

/-- What a step collects: nothing for a field, and another key with its value. -/
theorem Collects.extra_step {levels : Nat} {extra : σ → List (String × Json)} {grown : σ}
    (collects : table.Collects levels extra) (lawful : table.Lawful)
    (stepped : table.step state key tree = .ok grown) :
    (key ∈ table.names ∧ extra grown = extra state) ∨
      (key ∉ table.names ∧
        ∃ found, tree.json? levels = some found ∧ extra grown = (key, found) :: extra state) := by
  rcases lawful.step_eq_ok stepped with ⟨slot, member, rfl, -, value, -, rfl⟩ |
    ⟨unnamed, change, changed, rfl⟩
  · exact .inl ⟨List.mem_map.mpr ⟨slot, member, rfl⟩, collects.extra_set slot member state value⟩
  · refine .inr ⟨fun inNames => ?_, ?_⟩
    · obtain ⟨slot, member, same⟩ := List.mem_map.mp inNames
      exact unnamed slot member same
    · obtain ⟨changing, same, pushes⟩ := collects.other_eq key tree
      rw [same] at changed
      obtain ⟨found, read, rfl⟩ := map_eq_ok_iff.mp changed
      exact ⟨found, kept_eq_ok_iff.mp read, pushes found state⟩

/-- **The keys that name no field are collected in their order, each with its value.** -/
theorem Collects.extra_readMembers {levels : Nat} {extra : σ → List (String × Json)}
    (collects : table.Collects levels extra) (lawful : table.Lawful)
    (read : readMembers table.step state members = .ok final) :
    (∀ member ∈ othersOf table.names members, ∃ found, member.2.json? levels = some found) ∧
      extra final =
        (collected levels (othersOf table.names members)).reverse ++ extra state := by
  induction members generalizing state with
  | nil =>
    obtain rfl : state = final := Except.ok.inj read
    exact ⟨fun member absent => absurd absent List.not_mem_nil, rfl⟩
  | cons head members ih =>
    obtain ⟨keyText, tree⟩ := head
    obtain ⟨key, grown, known, stepped, continued⟩ := readMembers_cons_eq_ok_iff.mp read
    obtain ⟨readable, later⟩ := ih continued
    rcases collects.extra_step lawful stepped with ⟨named, same⟩ | ⟨unnamed, found, value, pushed⟩
    · rw [othersOf_cons_of_mem known named, ← same]
      exact ⟨readable, later⟩
    · rw [othersOf_cons_of_not_mem known unnamed]
      refine ⟨List.forall_mem_cons.mpr ⟨⟨found, value⟩, readable⟩, ?_⟩
      rw [later, pushed]
      simp [collected, value]

/-! ### Decoders -/

/-- A decoder that treats every field and every other key as the table says. -/
theorem Lawful.fieldsRead (lawful : table.Lawful) {fields : Fields σ}
    (named : ∀ slot ∈ table.slots, ∃ decoder : Decoder slot.Value, Reads decoder slot.meaning ∧
      ∀ state, fields state slot.name =
        Decoder.field slot.name (slot.get state) decoder (slot.set state))
    (unnamed : ∀ key ∉ table.names, ∀ state, ∃ decoder, fields state key = .ok decoder ∧
      Reads decoder fun tree => (table.other key tree).map fun change => change state) :
    FieldsRead fields table.step := by
  intro state key
  by_cases known : key ∈ table.names
  · obtain ⟨slot, member, rfl⟩ := List.mem_map.mp known
    obtain ⟨decoder, reads, treated⟩ := named slot member
    rw [treated]
    cases filled : slot.get state with
    | some value =>
      refine .refused fun tree => ?_
      rw [lawful.step_name member, Slot.read, filled]
    | none =>
      have meaning : table.step state slot.name = fun tree =>
          (slot.meaning tree).map (slot.set state) := by
        funext tree
        rw [lawful.step_name member, Slot.read, filled]
      rw [meaning]
      exact .value (reads.map (slot.set state))
  · obtain ⟨decoder, treated, reads⟩ := unnamed key known state
    have meaning : table.step state key = fun tree =>
        (table.other key tree).map fun change => change state := by
      funext tree
      exact step_other (names_ne known) state tree
    rw [treated, meaning]
    exact .value reads

/-- The value of a key that is collected into a state. -/
theorem reads_collected (levels : Nat) (change : Json → σ → σ) (state : σ) :
    Reads ((Decoder.value levels).map fun found => change found state) fun tree =>
      ((kept (tree.json? levels)).map change).map fun change => change state := by
  have same :
      (fun tree : Tree => ((kept (tree.json? levels)).map change).map fun change => change state) =
        fun tree => (kept (tree.json? levels)).map fun found => change found state := by
    funext tree
    cases tree.json? levels <;> rfl
  rw [same]
  exact (reads_value levels).map fun found => change found state

/-! ### Failures -/

/-- Why members are not read: a key without a value, a field that is filled already or stands twice,
or a value that cannot be read. -/
inductive Fails (table : Table σ) (state : σ) (members : List (StringText × Tree)) :
    ReadError → Prop
  | keyless {member : StringText × Tree} (present : member ∈ members)
      (none : member.1.value? = none) : Fails table state members .notJson
  | filled {slot : Slot σ} {error : ReadError} (isField : slot ∈ table.slots)
      (before : slot.get state ≠ none) (present : valuesOf slot.name members ≠ []) :
      Fails table state members error
  | twice {slot : Slot σ} {error : ReadError} (isField : slot ∈ table.slots)
      (many : 2 ≤ (valuesOf slot.name members).length) : Fails table state members error
  | unreadable {slot : Slot σ} {tree : Tree} {error : ReadError} (isField : slot ∈ table.slots)
      (present : tree ∈ valuesOf slot.name members) (refused : slot.meaning tree = .error error) :
      Fails table state members error
  | other {member : String × Tree} {error : ReadError}
      (present : member ∈ othersOf table.names members)
      (refused : table.other member.1 member.2 = .error error) : Fails table state members error

/-- A first member that is not read. -/
theorem Lawful.fails_of_step (lawful : table.Lawful) {error : ReadError}
    (known : keyText.value? = some key) (failed : table.step state key tree = .error error) :
    table.Fails state ((keyText, tree) :: members) error := by
  rcases lawful.step_eq_error failed with ⟨slot, member, rfl, filled | refused⟩ |
    ⟨unnamed, refused⟩
  · exact .filled member filled (by simp [valuesOf_cons_self known])
  · exact .unreadable member (by simp [valuesOf_cons_self known]) refused
  · have notNamed : key ∉ table.names := fun inNames => by
      obtain ⟨slot, member, same⟩ := List.mem_map.mp inNames
      exact unnamed slot member same
    exact .other (othersOf_cons_of_not_mem known notNamed ▸ List.mem_cons_self) refused

/-- Members that are not read behind a first one. -/
theorem Lawful.fails_cons (lawful : table.Lawful) {grown : σ} {error : ReadError}
    (known : keyText.value? = some key) (stepped : table.step state key tree = .ok grown)
    (fails : table.Fails grown members error) :
    table.Fails state ((keyText, tree) :: members) error := by
  have values (name : String) :
      (valuesOf name members).Sublist (valuesOf name ((keyText, tree) :: members)) :=
    (List.sublist_cons_self _ _).filterMap _
  cases fails with
  | keyless present none => exact .keyless (List.mem_cons_of_mem _ present) none
  | @filled slot _ isField before present =>
    rcases lawful.get_step stepped isField with ⟨rfl, -⟩ | ⟨-, same⟩
    · refine .twice isField ?_
      rw [valuesOf_cons_self known, List.length_cons]
      exact Nat.succ_le_succ (List.length_pos_iff.mpr present)
    · refine .filled isField (same ▸ before) fun absent => present ?_
      exact List.sublist_nil.mp (absent ▸ values slot.name)
  | @twice slot _ isField many =>
    exact .twice isField (Nat.le_trans many (values slot.name).length_le)
  | @unreadable slot _ _ isField present refused =>
    exact .unreadable isField ((values slot.name).subset present) refused
  | other present refused =>
    exact .other (((List.sublist_cons_self _ _).filterMap _).subset present) refused

/-- **Members that are not read have such a failure among them.** -/
theorem Lawful.fails_of_readMembers (lawful : table.Lawful) {error : ReadError}
    (failed : readMembers table.step state members = .error error) :
    table.Fails state members error := by
  induction members generalizing state with
  | nil => cases failed
  | cons head members ih =>
    obtain ⟨keyText, tree⟩ := head
    rw [readMembers] at failed
    rcases bind_eq_error_iff.mp failed with keyless | ⟨key, known, continued⟩
    · obtain ⟨none, rfl⟩ := kept_eq_error_iff.mp keyless
      exact .keyless List.mem_cons_self none
    have known := kept_eq_ok_iff.mp known
    rcases bind_eq_error_iff.mp continued with refused | ⟨grown, stepped, later⟩
    · exact lawful.fails_of_step known refused
    · exact lawful.fails_cons known stepped (ih later)

end Table

end RenderLink.Json
