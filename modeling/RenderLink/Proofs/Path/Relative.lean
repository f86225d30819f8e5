/-
**The way between paths, up and down.**

Two lists of components part behind their longest common beginning: what is left of them does not
begin alike. The way goes one step up for each component that is left of the first and then down
what is left of the second.

* `withoutCommon_parts`: **two lists part** behind a common beginning.
* `normalize_absolute`: an absolute path of names is its own normal form.
-/

import RenderLink.Path.Relative

namespace RenderLink.Path

/-- Two lists that part: they go on in different ways behind a common beginning. -/
structure Parts {α : Type} (first second common left right : List α) : Prop where
  first : first = common ++ left
  second : second = common ++ right
  apart : ∀ next ∈ left.head?, next ∉ right.head?

namespace Parts

variable {α : Type} {first second common left right : List α}

/-- Nothing is left of a beginning of the other list, and only of such a beginning. -/
theorem left_eq_nil_iff (parts : Parts first second common left right) :
    left = [] ↔ first <+: second := by
  rw [parts.first, parts.second, List.prefix_append_right_inj]
  constructor
  · rintro rfl
    exact List.nil_prefix
  · intro begins
    cases left with
    | nil => rfl
    | cons next rest =>
      obtain ⟨others, rfl⟩ := begins
      exact absurd rfl (parts.apart next rfl)

/-- Nothing is left of either list exactly if they are equal. -/
theorem eq_nil_iff (parts : Parts first second common left right) :
    left = [] ∧ right = [] ↔ second = first := by
  constructor
  · rintro ⟨rfl, rfl⟩
    rw [parts.first, parts.second]
  · rintro rfl
    have none : left = [] := parts.left_eq_nil_iff.2 List.prefix_rfl
    have same : common ++ left = common ++ right := parts.first.symm.trans parts.second
    exact ⟨none, by rw [← List.append_cancel_left same, none]⟩

/-- Lists that correspond to lists that part do so in the same way. -/
theorem of_map {β : Type} {f : α → β} (injective : Function.Injective f) {first second : List α}
    {common left right : List β} (parts : Parts (first.map f) (second.map f) common left right) :
    ∃ shared rest others, Parts first second shared rest others ∧
      left = rest.map f ∧ right = others.map f := by
  obtain ⟨shared, rest, rfl, same, rfl⟩ := List.map_eq_append_iff.1 parts.first
  obtain ⟨again, others, rfl, same', rfl⟩ := List.map_eq_append_iff.1 parts.second
  obtain rfl : shared = again :=
    (List.map_inj_right fun _ _ equal => injective equal).1 (same.trans same'.symm)
  refine ⟨shared, rest, others, ⟨rfl, rfl, fun next begins also => ?_⟩, rfl, rfl⟩
  refine parts.apart (f next) ?_ ?_
  · rw [List.head?_map]
    exact Option.mem_map_of_mem f begins
  · rw [List.head?_map]
    exact Option.mem_map_of_mem f also

end Parts

/-- **Two lists part** behind their longest common beginning. -/
theorem withoutCommon_parts (first second : List Component) :
    ∃ common, Parts first second common (withoutCommon first second).1
      (withoutCommon first second).2 := by
  fun_induction withoutCommon first second with
  | case1 first a second ih =>
    obtain ⟨common, parts⟩ := ih
    exact ⟨a :: common, congrArg (a :: ·) parts.first, congrArg (a :: ·) parts.second, parts.apart⟩
  | case2 a first b second different =>
    refine ⟨[], rfl, rfl, fun next begins also => different ?_⟩
    exact (Option.some.inj begins).trans (Option.some.inj also).symm
  | case3 first second ended =>
    refine ⟨[], rfl, rfl, fun next begins also => ?_⟩
    obtain ⟨rest, rfl⟩ := List.head?_eq_some_iff.1 begins
    obtain ⟨others, rfl⟩ := List.head?_eq_some_iff.1 also
    exact ended next rest next others rfl rfl

/-- An absolute path of names is its own normal form. -/
theorem normalize_absolute (names : List (List UInt8)) :
    normalize (.root :: names.map .name) = .root :: names.map .name := by
  simp [normalize, extendNormal, foldl_extendNormal_names]

end RenderLink.Path
