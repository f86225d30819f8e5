/-
**What becomes of a key.**

A key of an object is passed on with its value, or with a default in its place when the object does
not have it; for the fields of a record null is the same as no value, and for any other key the last
value counts (`Settled`). The value passed on is the one in the text, with the keys of its objects
in order (`IsValue`).

* `settled_of_onlyOf`: **a field that may be null is passed on with its value, or its default.**
* `Table.Collects.settled`: **any other key is passed on with its last value.**
* `Table.Collects.keys`: no key of a field is passed on besides.
-/

import RenderLink.Proofs.Json.Stability

namespace RenderLink.Json

variable {α σ : Type}

/-- Whether a tree is null. -/
def Tree.isNull : Tree → Bool
  | .null => true
  | _ => false

/-- The trees that are not null. -/
def present (trees : List Tree) : List Tree := trees.filter fun tree => !tree.isNull

/-- What a key is passed on with: what is read from the only tree for it, or the default. -/
inductive Settled (reading : Tree → Json → Prop) (default : Option Json) :
    List Tree → Option Json → Prop
  | missing : Settled reading default [] default
  | given {tree : Tree} {value : Json} (stands : reading tree value) :
      Settled reading default [tree] (some value)

/-- The value of a tree, with the keys of its objects in order. -/
def IsValue (levels : Nat) (tree : Tree) (value : Json) : Prop :=
  ∃ found, tree.json? levels = some found ∧ value = found.tidy

/-! ### Fields -/

/-- **A field that may be null is passed on with its value, or its default.** -/
theorem settled_of_onlyOf {name : String} {trees : List Tree} {meaning : Tree → Except ReadError α}
    {stored : Option (Option α)} {reading : Tree → Json → Prop} {toJson : α → Json}
    (only : onlyOf name (optionalOf meaning) trees = .ok stored)
    (reads : ∀ tree found, meaning tree = .ok found → reading tree (toJson found))
    (default : Option Json) :
    Settled reading default (present trees) ((stored.join.map toJson).or default) := by
  rcases onlyOf_eq_ok_iff.mp only with ⟨rfl, rfl⟩ | ⟨tree, found, rfl, meant, rfl⟩
  · exact .missing
  rcases optionalOf_eq_ok_iff.mp meant with ⟨rfl, rfl⟩ | ⟨notNull, value, read, rfl⟩
  · exact .missing
  · have kept : present [tree] = [tree] := by
      cases tree with
      | null => exact absurd rfl notNull
      | _ => rfl
    rw [kept]
    exact .given (reads tree value read)

theorem isValue_text (levels : Nat) {tree : Tree} {text : String}
    (read : textOf tree = .ok text) : IsValue levels tree (.string text) := by
  obtain ⟨written, rfl, known⟩ := textOf_eq_ok_iff.mp read
  exact ⟨.string text, by cases levels <;> simp [Tree.json?, known], rfl⟩

/-- What is collected for a key that names no field are its values. -/
theorem named_collected {levels : Nat} {names : List String} {key : String} (unnamed : key ∉ names)
    (members : List (StringText × Tree)) :
    named key (collected levels (othersOf names members)) =
      (valuesOf key members).filterMap (Tree.json? levels) := by
  have each (member : StringText × Tree) :
      ((member.1.value?.bind fun name =>
          if name ∈ names then none else some (name, member.2)).bind fun other =>
        ((other.2.json? levels).map fun found => (other.1, found)).bind fun entry =>
          if entry.1 = key then some entry.2 else none) =
        (if member.1.value? = some key then some member.2 else none).bind (Tree.json? levels) := by
    cases known : member.1.value? with
    | none => simp
    | some name =>
      by_cases same : name = key
      · subst same
        cases value : member.2.json? levels <;> simp [unnamed, value]
      · by_cases inNames : name ∈ names <;> cases value : member.2.json? levels <;>
          simp [same, inNames, value]
  rw [named_eq, collected, othersOf, valuesOf, List.filterMap_filterMap, List.filterMap_filterMap,
    List.filterMap_filterMap]
  exact List.filterMap_congr fun member _ => each member

/-- The last value of a key among those that are collected. -/
theorem settled_collected {levels : Nat} {names : List String}
    {members : List (StringText × Tree)} {key : String} (unnamed : key ∉ names)
    (readable : ∀ member ∈ othersOf names members, ∃ found, member.2.json? levels = some found) :
    Settled (IsValue levels) none (valuesOf key members).getLast?.toList
      (((collected levels (othersOf names members)).map tidied).reverse.lookup key) := by
  rw [lookup_reverse, named_tidied, named_collected unnamed]
  cases last : (valuesOf key members).getLast? with
  | none =>
    rw [List.getLast?_eq_none_iff.mp last]
    exact .missing
  | some tree =>
    obtain ⟨before, values⟩ := List.getLast?_eq_some_iff.mp last
    obtain ⟨member, present, known, same⟩ := mem_valuesOf.mp (List.mem_of_getLast? last)
    obtain ⟨found, read⟩ := readable (key, tree)
      (Table.mem_othersOf.mpr ⟨unnamed, member, present, known, same⟩)
    rw [values, List.filterMap_append, List.filterMap_cons_some read, List.filterMap_nil,
      List.map_append, List.map_singleton, List.getLast?_concat]
    exact .given ⟨found, read, rfl⟩

namespace Table

variable {table : Table σ} {levels : Nat} {start final : σ} {members : List (StringText × Tree)}
  {extra : σ → List (String × Json)}

/-- **Any other key is passed on with its last value.** -/
theorem Collects.settled (collects : table.Collects levels extra) (lawful : table.Lawful)
    (blank : extra start = []) (read : readMembers table.step start members = .ok final)
    {key : String} (unnamed : key ∉ table.names) :
    Settled (IsValue levels) none (valuesOf key members).getLast?.toList
      ((dictionary (extra final).reverse).find? key) := by
  rw [collects.dictionary_eq lawful blank read, Json.dictionary_eq, Dictionary.find?_ofList]
  exact settled_collected unnamed (collects.extra_readMembers lawful read).1

/-- No key of a field is passed on besides. -/
theorem Collects.keys (collects : table.Collects levels extra) (lawful : table.Lawful)
    (blank : extra start = []) (read : readMembers table.step start members = .ok final) :
    ∀ entry ∈ (dictionary (extra final).reverse).entries, entry.1 ∉ table.names := by
  intro entry there
  rw [collects.dictionary_eq lawful blank read] at there
  obtain ⟨found, inside, -⟩ := exists_of_mem_dictionary there
  obtain ⟨other, otherThere, valued⟩ := List.mem_filterMap.mp inside
  obtain ⟨value, -, pair⟩ := Option.map_eq_some_iff.mp valued
  rw [← show other.1 = entry.1 from congrArg Prod.fst pair]
  exact (mem_othersOf.mp otherThere).1

end Table

end RenderLink.Json
