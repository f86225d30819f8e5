/-
**Texts that differ in the order of keys.**

A tree is rearranged when, at any depth, the members of objects without repeated keys are put in
another order. The values by one name stay the same then, up to their own rearrangement, and so does
the dictionary of the other keys; whatever is read from a tree is read from a rearranged tree as
well (`Respects`).

* `Rearranged.json?`: **a rearranged tree has an alike value.**
* `RearrangedMembers.valuesOf`: the values of a name are those before, rearranged.
* `RearrangedMembers.collected`: the other keys are those before, in some order.
* `respects_listOr`, `respects_choice`: what is built from decoders that respect the order does so.
-/

import Mathlib.Data.List.Perm.Basic
import RenderLink.Proofs.Json.Record
import RenderLink.Proofs.Json.Tidy

namespace RenderLink.Json

variable {α β : Type}

/-! ### Rearranged trees -/

/-- No key with a value stands in an object twice. -/
def Distinct (members : List (StringText × Tree)) : Prop :=
  members.Pairwise fun first second =>
    ∀ key, first.1.value? = some key → second.1.value? ≠ some key

/-- Trees that differ only by the order of keys in objects without repeated keys. -/
inductive Rearranged : Tree → Tree → Prop
  | refl (tree : Tree) : Rearranged tree tree
  | list {items others : List Tree} (each : List.Forall₂ Rearranged items others) :
      Rearranged (.list items) (.list others)
  | object {members middle others : List (StringText × Tree)}
      (keys : members.map Prod.fst = middle.map Prod.fst)
      (values : List.Forall₂ Rearranged (members.map Prod.snd) (middle.map Prod.snd))
      (order : middle = others ∨ (middle.Perm others ∧ Distinct middle)) :
      Rearranged (.object members) (.object others)

/-- The same key with a rearranged value. -/
def Paired {κ : Type} (first second : κ × Tree) : Prop :=
  first.1 = second.1 ∧ Rearranged first.2 second.2

/-- Members with rearranged values, in another order if no key is repeated. -/
def RearrangedMembers (members others : List (StringText × Tree)) : Prop :=
  ∃ middle, List.Forall₂ Paired members middle ∧
    (middle = others ∨ (middle.Perm others ∧ Distinct middle))

theorem paired_of_maps {members middle : List (StringText × Tree)}
    (keys : members.map Prod.fst = middle.map Prod.fst)
    (values : List.Forall₂ Rearranged (members.map Prod.snd) (middle.map Prod.snd)) :
    List.Forall₂ Paired members middle := by
  have sameKeys : List.Forall₂ (fun first second => first.1 = second.1) members middle := by
    rw [← List.forall₂_eq_eq_eq, List.forall₂_map_left_iff, List.forall₂_map_right_iff] at keys
    exact keys
  rw [List.forall₂_map_left_iff, List.forall₂_map_right_iff] at values
  induction values with
  | nil => exact .nil
  | cons value _ ih =>
    cases sameKeys with
    | cons key behind => exact .cons ⟨key, value⟩ (ih (List.cons.inj keys).2 behind)

namespace Rearranged

variable {tree : Tree}

/-- What an object is rearranged to. -/
theorem object_cases {members : List (StringText × Tree)}
    (rearranged : Rearranged (.object members) tree) :
    ∃ others, tree = .object others ∧ RearrangedMembers members others := by
  cases rearranged with
  | refl => exact ⟨members, rfl, members, List.forall₂_same.mpr fun _ _ => ⟨rfl, .refl _⟩, .inl rfl⟩
  | object keys values order => exact ⟨_, rfl, _, paired_of_maps keys values, order⟩

/-- What a list is rearranged to. -/
theorem list_cases {items : List Tree} (rearranged : Rearranged (.list items) tree) :
    ∃ others, tree = .list others ∧ List.Forall₂ Rearranged items others := by
  cases rearranged with
  | refl => exact ⟨items, rfl, List.forall₂_same.mpr fun _ _ => .refl _⟩
  | list each => exact ⟨_, rfl, each⟩

end Rearranged

/-! ### Keys -/

/-- A key with a value belongs to one member at most. -/
theorem Distinct.length_valuesOf {members : List (StringText × Tree)} (distinct : Distinct members)
    (name : String) : (valuesOf name members).length ≤ 1 := by
  induction members with
  | nil => exact Nat.zero_le 1
  | cons member members ih =>
    obtain ⟨keyText, tree⟩ := member
    obtain ⟨apart, distinct⟩ := List.pairwise_cons.mp distinct
    by_cases known : keyText.value? = some name
    · have absent : valuesOf name members = [] := by
        refine List.eq_nil_iff_forall_not_mem.mpr fun tree present => ?_
        obtain ⟨member, found, alsoKnown, -⟩ := mem_valuesOf.mp present
        exact apart member found name known alsoKnown
      rw [valuesOf_cons_self known, absent]
      exact Nat.le_refl 1
    · rw [valuesOf_cons_of_ne known]
      exact ih distinct

/-- Keys that are different stay so where they are collected. -/
theorem Distinct.nodup_othersOf {members : List (StringText × Tree)} (distinct : Distinct members)
    (names : List String) : ((othersOf names members).map Prod.fst).Nodup := by
  rw [List.Nodup, List.pairwise_map, othersOf, List.pairwise_filterMap]
  refine List.Pairwise.imp ?_ distinct
  intro first second apart one oneFound two twoFound same
  obtain ⟨key, known, kept⟩ := Option.bind_eq_some_iff.mp oneFound
  obtain ⟨other, alsoKnown, alsoKept⟩ := Option.bind_eq_some_iff.mp twoFound
  split at kept
  · cases kept
  split at alsoKept
  · cases alsoKept
  cases kept
  cases alsoKept
  exact apart key known (alsoKnown.trans (congrArg some same.symm))

namespace RearrangedMembers

variable {members others : List (StringText × Tree)}

/-- Every key keeps its value. -/
theorem keys (rearranged : RearrangedMembers members others)
    (known : ∀ member ∈ members, ∃ key, member.1.value? = some key) :
    ∀ member ∈ others, ∃ key, member.1.value? = some key := by
  obtain ⟨middle, paired, order⟩ := rearranged
  have inMiddle : ∀ member ∈ middle, ∃ key, member.1.value? = some key := by
    clear order
    induction paired with
    | nil => exact fun member absent => absurd absent List.not_mem_nil
    | cons pair _ ih =>
      intro member present
      rcases List.mem_cons.mp present with rfl | later
      · exact pair.1 ▸ known _ List.mem_cons_self
      · exact ih (fun other there => known other (List.mem_cons_of_mem _ there)) member later
  rcases order with rfl | ⟨perm, -⟩
  · exact inMiddle
  · exact fun member present => inMiddle member (perm.mem_iff.mpr present)

/-- **The values of a name are those before, rearranged.** -/
theorem valuesOf (rearranged : RearrangedMembers members others) (name : String) :
    List.Forall₂ Rearranged (valuesOf name members) (valuesOf name others) := by
  obtain ⟨middle, paired, order⟩ := rearranged
  have inMiddle :
      List.Forall₂ Rearranged (Json.valuesOf name members) (Json.valuesOf name middle) := by
    clear order
    induction paired with
    | nil => exact .nil
    | @cons first second _ _ pair _ ih =>
      obtain ⟨firstKey, firstTree⟩ := first
      obtain ⟨secondKey, secondTree⟩ := second
      obtain ⟨rfl, value⟩ : firstKey = secondKey ∧ Rearranged firstTree secondTree := pair
      by_cases known : firstKey.value? = some name
      · rw [valuesOf_cons_self known, valuesOf_cons_self known]
        exact .cons value ih
      · rw [valuesOf_cons_of_ne known, valuesOf_cons_of_ne known]
        exact ih
  rcases order with rfl | ⟨perm, distinct⟩
  · exact inMiddle
  · have same : (Json.valuesOf name middle).Perm (Json.valuesOf name others) := perm.filterMap _
    have few := distinct.length_valuesOf name
    match found : Json.valuesOf name middle with
    | [] =>
      rw [found] at same inMiddle
      rw [List.nil_perm.mp same]
      exact inMiddle
    | [tree] =>
      rw [found] at same inMiddle
      rw [List.singleton_perm.mp same] at inMiddle
      exact inMiddle
    | _ :: _ :: _ =>
      rw [found, List.length_cons, List.length_cons] at few
      omega

end RearrangedMembers

/-! ### Values -/

/-- Values that are written for the items of rearranged lists are tidied to the same ones. -/
theorem tidied_of_each {levels : Nat} {items others : List Tree} {values : List Json}
    (each : List.Forall₂ Rearranged items others)
    (alike : ∀ {tree other : Tree} {value : Json}, Rearranged tree other →
      tree.json? levels = some value → ∃ found, other.json? levels = some found ∧ Alike value found)
    (read : items.mapM (Tree.json? levels) = some values) :
    ∃ found, others.mapM (Tree.json? levels) = some found ∧ values.map tidy = found.map tidy := by
  rw [mapM_eq_some_iff] at read
  induction each generalizing values with
  | nil =>
    cases read
    exact ⟨[], rfl, rfl⟩
  | cons item _ ih =>
    cases read with
    | cons one behind =>
      obtain ⟨others, mapped, same⟩ := ih behind
      obtain ⟨found, alsoFound, isAlike⟩ := alike item one
      refine ⟨found :: others, ?_, ?_⟩
      · rw [mapM_eq_some_iff] at mapped ⊢
        exact .cons alsoFound mapped
      · rw [List.map_cons, List.map_cons, same, isAlike.tidy_eq]

/-- Values that are written for the members of rearranged trees are tidied to the same ones. -/
theorem tidied_of_paired {levels : Nat} {members middle : List (StringText × Tree)}
    {values : List (String × Json)} (paired : List.Forall₂ Paired members middle)
    (alike : ∀ {tree other : Tree} {value : Json}, Rearranged tree other →
      tree.json? levels = some value → ∃ found, other.json? levels = some found ∧ Alike value found)
    (read : members.mapM (Tree.member? (Tree.json? levels)) = some values) :
    ∃ found, middle.mapM (Tree.member? (Tree.json? levels)) = some found ∧
      values.map tidied = found.map tidied := by
  rw [mapM_eq_some_iff] at read
  induction paired generalizing values with
  | nil =>
    cases read
    exact ⟨[], rfl, rfl⟩
  | @cons first second _ _ pair _ ih =>
    obtain ⟨firstKey, firstTree⟩ := first
    obtain ⟨secondKey, secondTree⟩ := second
    obtain ⟨rfl, value⟩ : firstKey = secondKey ∧ Rearranged firstTree secondTree := pair
    cases read with
    | cons one behind =>
      obtain ⟨others, mapped, same⟩ := ih behind
      obtain ⟨key, known, valued⟩ := Option.bind_eq_some_iff.mp one
      obtain ⟨inner, found, rfl⟩ := Option.map_eq_some_iff.mp valued
      obtain ⟨rearranged, alsoFound, isAlike⟩ := alike value found
      refine ⟨(key, rearranged) :: others, ?_, ?_⟩
      · rw [mapM_eq_some_iff] at mapped ⊢
        refine .cons ?_ mapped
        rw [Tree.member?, known, Option.bind_some, alsoFound]
        rfl
      · rw [List.map_cons, List.map_cons, same]
        exact congrArg (· :: _) (congrArg (Prod.mk key) isAlike.tidy_eq)

/-- The keys of an object's value are different where those of the object are. -/
theorem Distinct.nodup_of_mapM {value? : Tree → Option β} {members : List (StringText × Tree)}
    {values : List (String × β)} (distinct : Distinct members)
    (read : members.mapM (Tree.member? value?) = some values) : (values.map Prod.fst).Nodup := by
  rw [mapM_eq_some_iff] at read
  induction read with
  | nil => exact List.nodup_nil
  | @cons member value members values one behind ih =>
    obtain ⟨apart, distinct⟩ := List.pairwise_cons.mp distinct
    rw [List.map_cons, List.nodup_cons]
    refine ⟨fun twice => ?_, ih distinct⟩
    obtain ⟨again, present, same⟩ := List.mem_map.mp twice
    obtain ⟨source, inside, found⟩ := exists_source_of_mapM (mapM_eq_some_iff.mpr behind) present
    obtain ⟨key, known, valued⟩ := Option.bind_eq_some_iff.mp one
    obtain ⟨other, alsoKnown, alsoValued⟩ := Option.bind_eq_some_iff.mp found
    obtain ⟨_, _, rfl⟩ := Option.map_eq_some_iff.mp valued
    obtain ⟨_, _, rfl⟩ := Option.map_eq_some_iff.mp alsoValued
    exact apart source inside key known (alsoKnown.trans (congrArg some same))

/-- **A rearranged tree has an alike value.** -/
theorem Rearranged.json? {levels : Nat} {tree other : Tree} {value : Json}
    (rearranged : Rearranged tree other) (read : tree.json? levels = some value) :
    ∃ found, other.json? levels = some found ∧ Alike value found := by
  induction levels generalizing tree other value with
  | zero =>
    cases rearranged with
    | refl => exact ⟨value, read, .refl value⟩
    | list => cases read
    | object => cases read
  | succ levels ih =>
    cases tree with
    | list items =>
      obtain ⟨others, rfl, each⟩ := rearranged.list_cases
      obtain ⟨values, mapped, rfl⟩ := Option.map_eq_some_iff.mp read
      obtain ⟨found, alsoMapped, same⟩ := tidied_of_each each ih mapped
      refine ⟨.list found, ?_, ?_⟩
      · rw [Tree.json?, alsoMapped]
        rfl
      · show (Json.list values).tidy = (Json.list found).tidy
        rw [tidy_list, tidy_list, same]
    | object members =>
      obtain ⟨others, rfl, middle, paired, order⟩ := rearranged.object_cases
      obtain ⟨values, mapped, rfl⟩ := Option.map_eq_some_iff.mp read
      obtain ⟨inMiddle, middleMapped, same⟩ := tidied_of_paired paired ih mapped
      rcases order with rfl | ⟨perm, distinct⟩
      · refine ⟨.object inMiddle, ?_, .inl same⟩
        rw [Tree.json?, middleMapped]
        rfl
      · have distinctKeys := distinct.nodup_of_mapM middleMapped
        obtain ⟨found, alsoMapped, alsoPerm⟩ :=
          List.perm_comp_forall₂ perm.symm (mapM_eq_some_iff.mp middleMapped)
        refine ⟨.object found, ?_, .inr ⟨?_, ?_⟩⟩
        · rw [Tree.json?, mapM_eq_some_iff.mpr alsoMapped]
          rfl
        · rw [same]
          exact alsoPerm.symm.map tidied
        · rw [same, List.map_map]
          exact distinctKeys
    | null | bool | number | string =>
      cases rearranged
      exact ⟨value, read, .refl value⟩

/-! ### Other keys -/

/-- The other keys of paired members are paired. -/
theorem paired_othersOf {members middle : List (StringText × Tree)}
    (paired : List.Forall₂ Paired members middle) (names : List String) :
    List.Forall₂ Paired (othersOf names members) (othersOf names middle) := by
  induction paired with
  | nil => exact .nil
  | @cons first second members middle pair _ ih =>
    obtain ⟨keyText, tree⟩ := first
    obtain ⟨secondKey, other⟩ := second
    obtain ⟨rfl, value⟩ : keyText = secondKey ∧ Rearranged tree other := pair
    cases known : keyText.value? with
    | none =>
      have skipped (tree : Tree) (behind : List (StringText × Tree)) :
          othersOf names ((keyText, tree) :: behind) = othersOf names behind := by
        simp [othersOf, known]
      rw [skipped, skipped]
      exact ih
    | some key =>
      by_cases inNames : key ∈ names
      · rw [othersOf_cons_of_mem known inNames, othersOf_cons_of_mem known inNames]
        exact ih
      · rw [othersOf_cons_of_not_mem known inNames, othersOf_cons_of_not_mem known inNames]
        exact .cons ⟨rfl, value⟩ ih

/-- Paired members are collected alike. -/
theorem collected_of_paired {levels : Nat} {members middle : List (String × Tree)}
    (paired : List.Forall₂ Paired members middle)
    (readable : ∀ member ∈ members, ∃ found, member.2.json? levels = some found) :
    (∀ member ∈ middle, ∃ found, member.2.json? levels = some found) ∧
      (collected levels members).map tidied = (collected levels middle).map tidied := by
  induction paired with
  | nil => exact ⟨fun member absent => absurd absent List.not_mem_nil, rfl⟩
  | @cons first second members middle pair _ ih =>
    obtain ⟨laterReadable, same⟩ := ih fun member later =>
      readable member (List.mem_cons_of_mem _ later)
    obtain ⟨value, read⟩ := readable first List.mem_cons_self
    obtain ⟨found, alsoRead, alike⟩ := pair.2.json? read
    refine ⟨fun member present => ?_, ?_⟩
    · rcases List.mem_cons.mp present with rfl | later
      · exact ⟨found, alsoRead⟩
      · exact laterReadable member later
    · unfold collected at same ⊢
      rw [List.filterMap_cons, List.filterMap_cons, read, alsoRead]
      show tidied (first.1, value) :: _ = tidied (second.1, found) :: _
      rw [same, tidied, tidied, pair.1, alike.tidy_eq]

/-- The keys that are collected stand in their order. -/
theorem keys_collected (levels : Nat) (members : List (String × Tree)) :
    ((collected levels members).map Prod.fst).Sublist (members.map Prod.fst) := by
  induction members with
  | nil => exact List.Sublist.slnil
  | cons member members ih =>
    unfold collected at ih ⊢
    rw [List.filterMap_cons]
    cases member.2.json? levels with
    | none => exact ih.cons _
    | some value => exact ih.cons_cons _

namespace RearrangedMembers

variable {members others : List (StringText × Tree)} {levels : Nat}

/-- **The other keys are those before with the same values, in some order.** -/
theorem collected (rearranged : RearrangedMembers members others) (names : List String)
    (readable : ∀ member ∈ othersOf names members, ∃ found, member.2.json? levels = some found) :
    (∀ member ∈ othersOf names others, ∃ found, member.2.json? levels = some found) ∧
      SamePairs ((Json.collected levels (othersOf names members)).map tidied)
        ((Json.collected levels (othersOf names others)).map tidied) := by
  obtain ⟨middle, paired, order⟩ := rearranged
  obtain ⟨inMiddle, same⟩ := collected_of_paired (paired_othersOf paired names) readable
  rcases order with rfl | ⟨perm, distinct⟩
  · exact ⟨inMiddle, .inl same⟩
  · have permOthers : (othersOf names middle).Perm (othersOf names others) := perm.filterMap _
    refine ⟨fun member present => inMiddle member (permOthers.mem_iff.mpr present), .inr ⟨?_, ?_⟩⟩
    · rw [same]
      exact (permOthers.filterMap _).map tidied
    · rw [same, List.map_map]
      exact (keys_collected levels _).nodup (distinct.nodup_othersOf names)

end RearrangedMembers

/-! ### Meanings that respect the order of keys -/

/-- What a tree means is what a rearranged tree means. -/
def Respects (meaning : Tree → Except ReadError α) : Prop :=
  ∀ ⦃tree other : Tree⦄ ⦃value : α⦄, Rearranged tree other → meaning tree = .ok value →
    meaning other = .ok value

/-- What items mean is what rearranged items mean. -/
def RespectsItems (meaning : List Tree → Except ReadError α) : Prop :=
  ∀ ⦃items others : List Tree⦄ ⦃value : α⦄, List.Forall₂ Rearranged items others →
    meaning items = .ok value → meaning others = .ok value

theorem respects_boolean : Respects booleanOf := by
  intro tree other value rearranged read
  obtain rfl := booleanOf_eq_ok_iff.mp read
  cases rearranged
  exact read

theorem respects_text : Respects textOf := by
  intro tree other value rearranged read
  obtain ⟨text, rfl, -⟩ := textOf_eq_ok_iff.mp read
  cases rearranged
  exact read

theorem Respects.optional {meaning : Tree → Except ReadError α} (respects : Respects meaning) :
    Respects (optionalOf meaning) := by
  intro tree other value rearranged read
  rcases optionalOf_eq_ok_iff.mp read with ⟨rfl, -⟩ | ⟨notNull, found, meant, rfl⟩
  · cases rearranged
    exact read
  · refine optionalOf_eq_ok_iff.mpr (.inr ⟨?_, found, respects rearranged meant, rfl⟩)
    rintro rfl
    cases rearranged
    exact notNull rfl

theorem respects_listOr {levels : Nat} {items : Nat → List Tree → Except ReadError α}
    {other : Tree → Except ReadError α} (itemsRespect : ∀ inner, RespectsItems (items inner))
    (respects : Respects other) : Respects (listOr levels items other) := by
  intro tree rearrangedTree value rearranged read
  rcases listOr_eq_ok_iff.mp read with ⟨trees, inner, rfl, rfl, listed⟩ | ⟨noList, meant⟩
  · obtain ⟨others, rfl, each⟩ := rearranged.list_cases
    exact listOr_eq_ok_iff.mpr (.inl ⟨others, inner, rfl, rfl, itemsRespect inner each listed⟩)
  · refine listOr_eq_ok_iff.mpr (.inr ⟨?_, respects rearranged meant⟩)
    rintro others rfl
    cases rearranged with
    | refl => exact noList _ rfl
    | list => exact noList _ rfl

/-- Nothing is read of the wrong kind. -/
theorem respects_mismatched (expected : Expected) :
    Respects (mismatched expected : Tree → Except ReadError α) :=
  fun _ _ _ _ read => absurd read mismatched_ne_ok

theorem RespectsItems.next {meaning : Tree → Except ReadError α}
    {next : Option α → List Tree → Except ReadError β} (respects : Respects meaning)
    (behind : ∀ found, RespectsItems (next found)) : RespectsItems (nextItem meaning next) := by
  intro items others value each read
  cases each with
  | nil => exact read
  | cons item rest =>
    obtain ⟨found, meant, last⟩ := bind_eq_ok_iff.mp read
    exact bind_eq_ok_iff.mpr ⟨found, respects item meant, behind _ rest last⟩

theorem RespectsItems.required {meaning : Tree → Except ReadError α} {place : Nat}
    {expected : Expected} {next : α → List Tree → Except ReadError β} (respects : Respects meaning)
    (behind : ∀ found, RespectsItems (next found)) :
    RespectsItems (requiredItem meaning place expected next) := by
  intro items others value each read
  cases each with
  | nil => exact read
  | cons item rest =>
    obtain ⟨found, meant, last⟩ := bind_eq_ok_iff.mp read
    exact bind_eq_ok_iff.mpr ⟨found, respects item meant, behind _ rest last⟩

theorem respectsItems_none (value : α) : RespectsItems (noItem value) := by
  intro items others found each read
  cases each with
  | nil => exact read
  | cons => cases read

theorem respects_pair (levels : Nat) : Respects (pairOf levels) :=
  respects_listOr
    (fun _ => RespectsItems.required respects_text fun _ =>
      RespectsItems.required respects_text fun _ => respectsItems_none _)
    (respects_mismatched .pair)

/-- A choice that is the same for alike values. -/
theorem respects_choice (name : String) (levels : Nat) {shape? : Json → Option α}
    (sameShape : ∀ {value other : Json} {found : α}, Alike value other →
      shape? value = some found → shape? other = some found) :
    Respects (choiceOf name levels shape?) := by
  intro tree other value rearranged read
  obtain ⟨found, known, shaped⟩ := choiceOf_eq_ok_iff.mp read
  obtain ⟨rearrangedValue, alsoKnown, alike⟩ := rearranged.json? known
  exact choiceOf_eq_ok_iff.mpr ⟨rearrangedValue, alsoKnown, sameShape alike shaped⟩

/-- The only value of a field is that of the rearranged field. -/
theorem Respects.onlyOf {meaning : Tree → Except ReadError α} (respects : Respects meaning)
    {name : String} {trees others : List Tree} {value : Option α}
    (each : List.Forall₂ Rearranged trees others) (read : onlyOf name meaning trees = .ok value) :
    onlyOf name meaning others = .ok value := by
  rcases onlyOf_eq_ok_iff.mp read with ⟨rfl, rfl⟩ | ⟨tree, found, rfl, meant, rfl⟩
  · cases each
    rfl
  · cases each with
    | cons one none =>
      cases none
      exact onlyOf_eq_ok_iff.mpr (.inr ⟨_, found, rfl, respects one meant, rfl⟩)

end RenderLink.Json
