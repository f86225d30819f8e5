/-
**Dictionaries in key order.**

A dictionary is a list of pairs with strictly increasing keys, so two dictionaries with the same
entries are the same list. Keys are compared by code points, which is also the order of their bytes
in UTF-8.

* `find?_insert_self`, `find?_insert_of_ne`: a key that is put in has the new value, and every other
  key keeps its own.
-/

namespace RenderLink

/-- The pairs of a list with one pair added in key order; a pair with the same key gives way. -/
def insertSorted {α : Type} (key : String) (value : α) :
    List (String × α) → List (String × α)
  | [] => [(key, value)]
  | (other, kept) :: rest =>
    if key < other then (key, value) :: (other, kept) :: rest
    else if other < key then (other, kept) :: insertSorted key value rest
    else (key, value) :: rest

/-- The keys after an insertion are the new key and the keys before it. -/
theorem mem_insertSorted {α : Type} {key : String} {value : α} {pairs : List (String × α)}
    {pair : String × α} (member : pair ∈ insertSorted key value pairs) :
    pair = (key, value) ∨ pair ∈ pairs := by
  induction pairs with
  | nil => simpa [insertSorted] using member
  | cons head rest ih =>
    obtain ⟨other, kept⟩ := head
    simp only [insertSorted] at member
    split at member
    · simpa using member
    · split at member
      · rcases List.mem_cons.mp member with equal | later
        · exact Or.inr (equal ▸ List.mem_cons_self)
        · exact (ih later).imp_right (List.mem_cons_of_mem _)
      · rcases List.mem_cons.mp member with equal | later
        · exact Or.inl equal
        · exact Or.inr (List.mem_cons_of_mem _ later)

/-- Insertion keeps the keys strictly increasing. -/
theorem pairwise_insertSorted {α : Type} (key : String) (value : α) {pairs : List (String × α)}
    (sorted : pairs.Pairwise fun first second => first.1 < second.1) :
    (insertSorted key value pairs).Pairwise fun first second => first.1 < second.1 := by
  induction pairs with
  | nil => simp [insertSorted]
  | cons head rest ih =>
    obtain ⟨other, kept⟩ := head
    obtain ⟨least, tail⟩ := List.pairwise_cons.mp sorted
    simp only [insertSorted]
    split
    case isTrue below =>
      refine List.pairwise_cons.mpr ⟨fun pair member => ?_, sorted⟩
      rcases List.mem_cons.mp member with equal | later
      · exact equal ▸ below
      · exact String.lt_trans below (least pair later)
    case isFalse notBelow =>
      split
      case isTrue above =>
        refine List.pairwise_cons.mpr ⟨fun pair member => ?_, ih tail⟩
        rcases mem_insertSorted member with equal | later
        · exact equal ▸ above
        · exact least pair later
      case isFalse notAbove =>
        have equal : key = other :=
          String.le_antisymm (String.not_lt.mp notAbove) (String.not_lt.mp notBelow)
        exact List.pairwise_cons.mpr ⟨fun pair later => equal ▸ least pair later, tail⟩

/-- Values by key, in strictly increasing key order. -/
structure Dictionary (α : Type) where
  entries : List (String × α)
  sorted : entries.Pairwise fun first second => first.1 < second.1

namespace Dictionary

variable {α : Type}

def empty : Dictionary α := ⟨[], List.Pairwise.nil⟩

instance : EmptyCollection (Dictionary α) := ⟨empty⟩

instance : Inhabited (Dictionary α) := ⟨empty⟩

def insert (dictionary : Dictionary α) (key : String) (value : α) : Dictionary α :=
  ⟨insertSorted key value dictionary.entries, pairwise_insertSorted key value dictionary.sorted⟩

/-- The dictionary of a list of pairs, in which the last pair of a key counts. -/
def ofList (pairs : List (String × α)) : Dictionary α :=
  pairs.foldl (fun dictionary pair => dictionary.insert pair.1 pair.2) empty

def find? (dictionary : Dictionary α) (key : String) : Option α :=
  dictionary.entries.lookup key

/-- A key that is put in has the new value. -/
theorem find?_insert_self (dictionary : Dictionary α) (key : String) (value : α) :
    (dictionary.insert key value).find? key = some value := by
  obtain ⟨entries, sorted⟩ := dictionary
  simp only [insert, find?]
  clear sorted
  induction entries with
  | nil => simp [insertSorted]
  | cons head rest ih =>
    obtain ⟨other, kept⟩ := head
    simp only [insertSorted]
    split
    · simp
    · split
      case isTrue above =>
        have differ : (key == other) = false :=
          beq_false_of_ne fun equal => String.lt_irrefl other (equal ▸ above)
        simp [List.lookup_cons, differ, ih]
      · simp

/-- Every other key keeps its value. -/
theorem find?_insert_of_ne (dictionary : Dictionary α) {key other : String} (value : α)
    (differ : other ≠ key) :
    (dictionary.insert key value).find? other = dictionary.find? other := by
  obtain ⟨entries, sorted⟩ := dictionary
  simp only [insert, find?]
  clear sorted
  have unequal : (other == key) = false := beq_false_of_ne differ
  induction entries with
  | nil => simp [insertSorted, List.lookup_cons, unequal]
  | cons head rest ih =>
    obtain ⟨name, kept⟩ := head
    simp only [insertSorted]
    split
    · simp [List.lookup_cons, unequal]
    · split
      · simp [List.lookup_cons, ih]
      case isFalse notBelow notAbove =>
        have equal : key = name :=
          String.le_antisymm (String.not_lt.mp notAbove) (String.not_lt.mp notBelow)
        simp [List.lookup_cons, ← equal, unequal]

end Dictionary

end RenderLink
