/-
**Normal forms of paths.**

In a normal form the root stands only in front, a step up only in front or behind another one, and
no dot stands at all. Every step keeps this shape (`IsNormal.extend`), so a normal form is its own
one, and it is reached from each of its beginnings by the rest of it. A step adds a component at the
end, takes one away or changes nothing, so it changes the distance to another place by one at most.

* `isNormal_normalForm`: **the shape of a normal form.**
* `IsNormal.foldl_eq`: a normal form is reached from its beginnings.
* `distance_foldl`: **no fewer steps than the distance** lead from one place to another.
-/

import RenderLink.Proofs.Path.Join
import RenderLink.Proofs.Path.Relative
import Mathlib.Data.List.Chain
import Mathlib.Data.List.Induction

namespace RenderLink.Path

/-- The normal form of a path. -/
def normalForm (path : Path) : List Component := normalize path.components

/-- What may stand behind a component in a normal form: a name, or a step up behind a step up. -/
def MayFollow (before next : Component) : Prop :=
  next ≠ .root ∧ (next = .parent → before = .parent)

theorem mayFollow_name (before : Component) (bytes : List UInt8) :
    MayFollow before (.name bytes) := by
  simp [MayFollow]

theorem mayFollow_parent : MayFollow .parent .parent := by
  simp [MayFollow]

/-- The shape of a normal form. -/
structure IsNormal (list : List Component) : Prop where
  noDot : .current ∉ list
  ordered : list.IsChain MayFollow

variable {path : Path} {done front rest list steps : List Component} {component : Component}

/-! ### Shape -/

theorem isNormal_concat :
    IsNormal (list ++ [component]) ↔
      IsNormal list ∧ component ≠ .current ∧ ∀ last ∈ list.getLast?, MayFollow last component := by
  constructor
  · rintro ⟨noDot, ordered⟩
    rw [List.isChain_append] at ordered
    rw [List.mem_append, not_or] at noDot
    exact ⟨⟨noDot.1, ordered.1⟩, fun same => noDot.2 (same ▸ List.mem_singleton_self _),
      fun last isLast => ordered.2.2 last isLast component rfl⟩
  · rintro ⟨⟨noDot, ordered⟩, notDot, follows⟩
    refine ⟨?_, List.isChain_append.mpr ⟨ordered, List.isChain_singleton _, ?_⟩⟩
    · rw [List.mem_append, not_or, List.mem_singleton]
      exact ⟨noDot, Ne.symm notDot⟩
    · intro last isLast next isNext
      obtain rfl : component = next := Option.some.inj isNext
      exact follows last isLast

theorem IsNormal.of_append_left (normal : IsNormal (front ++ rest)) : IsNormal front where
  noDot := fun member => normal.noDot (List.mem_append_left rest member)
  ordered := (List.isChain_append.mp normal.ordered).1

theorem IsNormal.of_append_right (normal : IsNormal (front ++ rest)) : IsNormal rest where
  noDot := fun member => normal.noDot (List.mem_append_right front member)
  ordered := (List.isChain_append.mp normal.ordered).2.1

/-- The root stands only in front. -/
theorem IsNormal.root_front (normal : IsNormal (front ++ .root :: rest)) : front = [] := by
  have seam := (List.isChain_append.mp normal.ordered).2.2
  cases last : front.getLast? with
  | none => exact List.getLast?_eq_none_iff.mp last
  | some before => exact absurd rfl (seam before last .root rfl).1

/-- Only steps up stand before a step up. -/
theorem IsNormal.parents_front (normal : IsNormal (front ++ .parent :: rest)) :
    ∀ component ∈ front, component = .parent := by
  induction front using List.reverseRecOn generalizing rest with
  | nil => simp
  | append_singleton front last ih =>
    have seam := (List.isChain_append.mp normal.ordered).2.2
    have up : last = .parent := (seam last (by simp) .parent rfl).2 rfl
    subst up
    rw [List.append_assoc, List.singleton_append] at normal
    intro component member
    rcases List.mem_append.mp member with before | same
    · exact ih normal component before
    · exact List.mem_singleton.mp same

/-- A normal form without the root is steps up and then names. -/
theorem IsNormal.ups_and_names (normal : IsNormal list) (noRoot : .root ∉ list) :
    ∃ (ups : Nat) (names : List (List UInt8)),
      list = List.replicate ups .parent ++ names.map .name := by
  induction list using List.reverseRecOn with
  | nil => exact ⟨0, [], rfl⟩
  | append_singleton front last ih =>
    rw [List.mem_append, not_or, List.mem_singleton] at noRoot
    obtain ⟨ups, names, shape⟩ := ih normal.of_append_left noRoot.1
    cases last with
    | root => exact absurd rfl noRoot.2
    | current => exact absurd rfl (isNormal_concat.mp normal).2.1
    | parent =>
      have all := List.eq_replicate_of_mem normal.parents_front
      refine ⟨front.length + 1, [], ?_⟩
      rw [List.replicate_succ', ← all, List.map_nil, List.append_nil]
    | name bytes => exact ⟨ups, names ++ [bytes], by simp [shape]⟩

/-! ### Steps -/

/-- A step keeps the shape of a normal form. -/
theorem IsNormal.extend (normal : IsNormal done.reverse) (notRoot : component ≠ .root) :
    IsNormal (extendNormal done component).reverse := by
  cases component with
  | root => exact absurd rfl notRoot
  | current => exact normal
  | name bytes =>
    show IsNormal (Component.name bytes :: done).reverse
    rw [List.reverse_cons, isNormal_concat]
    exact ⟨normal, by simp, fun last _ => mayFollow_name last bytes⟩
  | parent =>
    cases done with
    | nil => exact ⟨by simp [extendNormal], List.isChain_singleton _⟩
    | cons last before =>
      cases last with
      | root => exact normal
      | current => exact absurd (by simp) normal.noDot
      | name bytes =>
        rw [List.reverse_cons] at normal
        exact normal.of_append_left
      | parent =>
        show IsNormal (Component.parent :: .parent :: before).reverse
        rw [List.reverse_cons, isNormal_concat]
        refine ⟨normal, by simp, fun last isLast => ?_⟩
        obtain rfl : Component.parent = last := by simpa using isLast
        exact mayFollow_parent

theorem IsNormal.foldl (normal : IsNormal done.reverse)
    (noRoot : ∀ component ∈ steps, component ≠ .root) :
    IsNormal (steps.foldl extendNormal done).reverse := by
  induction steps generalizing done with
  | nil => exact normal
  | cons component steps ih =>
    obtain ⟨here, later⟩ := List.forall_mem_cons.mp noRoot
    exact ih (normal.extend here) later

/-- A component that may stand at the end is added there. -/
theorem IsNormal.extendNormal_eq (normal : IsNormal (done.reverse ++ [component])) :
    extendNormal done component = component :: done := by
  obtain ⟨-, notDot, follows⟩ := isNormal_concat.mp normal
  cases component with
  | root => rfl
  | current => exact absurd rfl notDot
  | name bytes => rfl
  | parent =>
    cases done with
    | nil => rfl
    | cons last before =>
      obtain rfl : last = .parent := (follows last (by simp)).2 rfl
      rfl

/-- A normal form is reached from each of its beginnings by the rest of it. -/
theorem IsNormal.foldl_eq (normal : IsNormal (done.reverse ++ list)) :
    list.foldl extendNormal done = list.reverse ++ done := by
  induction list generalizing done with
  | nil => rfl
  | cons component list ih =>
    have further : IsNormal ((component :: done).reverse ++ list) := by
      rw [List.reverse_cons, List.append_assoc]
      exact normal
    have added : extendNormal done component = component :: done := by
      apply IsNormal.extendNormal_eq
      rw [← List.reverse_cons]
      exact further.of_append_left
    rw [List.foldl_cons, added, ih further]
    simp

/-! ### The normal form of a path -/

theorem mem_foldl_extendNormal (member : component ∈ steps.foldl extendNormal done) :
    component ∈ steps ∨ component ∈ done := by
  have step : ∀ (done : List Component) (next : Component),
      component ∈ extendNormal done next → component = next ∨ component ∈ done := by
    intro done next member
    unfold extendNormal at member
    split at member
    · exact Or.inr member
    · split at member
      · exact Or.inr (List.mem_cons_of_mem _ member)
      · exact Or.inr member
      · exact List.mem_cons.mp member
    · exact List.mem_cons.mp member
  induction steps generalizing done with
  | nil => exact Or.inr member
  | cons next steps ih =>
    rcases ih member with later | before
    · exact Or.inl (List.mem_cons_of_mem _ later)
    · rcases step done next before with rfl | before
      · exact Or.inl List.mem_cons_self
      · exact Or.inr before

/-- What stands in the normal form of a path is a component of it. -/
theorem mem_components_of_mem_normalForm (member : component ∈ path.normalForm) :
    component ∈ path.components := by
  have member := mem_foldl_extendNormal (List.mem_reverse.mp member)
  exact member.resolve_right List.not_mem_nil

theorem components_of_isAbsolute (absolute : path.isAbsolute = true) :
    path.components = .root :: path.segments.filterMap Component.ofSegment? := by
  unfold components
  rw [if_pos absolute]

theorem root_not_mem_segments :
    ∀ component ∈ path.segments.filterMap Component.ofSegment?, component ≠ .root := by
  intro component member
  obtain ⟨segment, -, counts⟩ := List.mem_filterMap.mp member
  exact (moves_of_ofSegment? counts).1

theorem root_not_mem_components (relative : path.isAbsolute = false) :
    ∀ component ∈ path.components, component ≠ .root := by
  unfold components
  rw [relative, if_neg Bool.false_ne_true]
  split
  · exact List.forall_mem_cons.mpr ⟨nofun, root_not_mem_segments⟩
  · exact root_not_mem_segments

/-- **The shape of a normal form.** -/
theorem isNormal_normalForm (path : Path) : IsNormal path.normalForm := by
  have empty : IsNormal [] := ⟨List.not_mem_nil, List.isChain_nil⟩
  unfold normalForm normalize
  cases absolute : path.isAbsolute with
  | false => exact IsNormal.foldl empty (root_not_mem_components absolute)
  | true =>
    rw [components_of_isAbsolute absolute, List.foldl_cons]
    exact IsNormal.foldl ⟨by simp [extendNormal], List.isChain_singleton _⟩ root_not_mem_segments

/-- The root stays where it is. -/
theorem root_mem_foldl (member : .root ∈ done) : .root ∈ steps.foldl extendNormal done := by
  induction steps generalizing done with
  | nil => exact member
  | cons next steps ih =>
    apply ih
    unfold extendNormal
    split
    · exact member
    · split
      · exact (List.mem_cons.mp member).resolve_left nofun
      · exact member
      · exact List.mem_cons_of_mem _ member
    · exact List.mem_cons_of_mem _ member

/-- The normal form of a path holds the root exactly if the path is absolute. -/
theorem root_mem_normalForm_iff : .root ∈ path.normalForm ↔ path.isAbsolute = true := by
  constructor
  · intro member
    by_contra relative
    exact root_not_mem_components (Bool.eq_false_iff.mpr relative) .root
      (mem_components_of_mem_normalForm member) rfl
  · intro absolute
    unfold normalForm normalize
    rw [components_of_isAbsolute absolute, List.foldl_cons, List.mem_reverse]
    exact root_mem_foldl List.mem_cons_self

/-! ### Distance -/

/-- The number of steps from one normal form up to where another one parts from it and down. -/
def distance (first second : List Component) : Nat :=
  (withoutCommon first second).1.length + (withoutCommon first second).2.length

theorem distance_self (list : List Component) : distance list list = 0 := by
  unfold distance
  induction list with
  | nil => rfl
  | cons component list ih => rwa [withoutCommon, if_pos rfl]

/-- One more component at the end changes the distance by one at most. -/
theorem distance_concat (list target : List Component) (component : Component) :
    distance list target ≤ distance (list ++ [component]) target + 1 ∧
      distance (list ++ [component]) target ≤ distance list target + 1 := by
  unfold distance
  induction list generalizing target with
  | nil =>
    cases target with
    | nil => simp [withoutCommon]
    | cons next target =>
      by_cases same : component = next
      · subst same
        cases target <;> simp [withoutCommon]
      · simp [withoutCommon, same]
        omega
  | cons first list ih =>
    cases target with
    | nil => simp [withoutCommon]
    | cons next target =>
      by_cases same : first = next
      · simpa [withoutCommon, same] using ih target
      · simp [withoutCommon, same]
        omega

/-- A step changes the distance by one at most. -/
theorem distance_extend (done target : List Component) (component : Component) :
    distance done.reverse target ≤
      distance (extendNormal done component).reverse target + 1 := by
  have added (last : Component) : distance done.reverse target ≤
      distance (last :: done).reverse target + 1 := by
    rw [List.reverse_cons]
    exact (distance_concat done.reverse target last).1
  unfold extendNormal
  split
  · exact Nat.le_succ _
  · split
    · rw [List.reverse_cons]
      exact (distance_concat _ target _).2
    · exact Nat.le_succ _
    · exact added .parent
  · exact added _

/-- **No fewer steps than the distance** lead from one place to another. -/
theorem distance_foldl (done target steps : List Component) :
    distance done.reverse target ≤
      distance (steps.foldl extendNormal done).reverse target + steps.length := by
  induction steps generalizing done with
  | nil => exact Nat.le_refl _
  | cons component steps ih =>
    have first := distance_extend done target component
    have later := ih (extendNormal done component)
    rw [List.foldl_cons, List.length_cons]
    omega

end RenderLink.Path
