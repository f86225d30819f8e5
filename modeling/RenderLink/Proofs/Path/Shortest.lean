/-
**The shortest way from one path to another.**

The way goes up through names only: where both paths are absolute they share the root, and where
both are relative the first one leads no further up than the second (`Reaches`), so every step up of
the first is one of the second. Then it goes down what is left of the second normal form, which may
begin with steps up. As many steps as these are the distance between the two.

* `Parts.left_names`, `Parts.root_not_mem_right`: what the two normal forms do not share.
* `ofString_relative`: the text of the way names its segments.
* `normalForm_join_steps`, `distance_le`: the way arrives, and no shorter one does.
* `relative_isShortest`: **the way from one path to another.**
-/

import RenderLink.Proofs.Path.Normal

namespace RenderLink.Path

open Text

variable {path origin target : Path} {first second common left right : List Component}
  {component : Component}

/-! ### What two normal forms do not share -/

/-- The number of steps up that a path begins with. -/
def stepsUp (path : Path) : Nat :=
  (path.normalForm.takeWhile fun component => component = .parent).length

/-- Both paths are absolute, or both are relative and the first one leads no further up. -/
def Reaches (origin target : Path) : Prop :=
  (origin.isAbsolute = true ∧ target.isAbsolute = true) ∨
    (origin.isAbsolute = false ∧ target.isAbsolute = false ∧ origin.stepsUp ≤ target.stepsUp)

theorem Reaches.isAbsolute_iff (reaches : Reaches origin target) :
    origin.isAbsolute = true ↔ target.isAbsolute = true := by
  rcases reaches with ⟨origin, target⟩ | ⟨origin, target, -⟩ <;> simp [origin, target]

theorem Parts.symm (parts : Parts first second common left right) :
    Parts second first common right left :=
  ⟨parts.second, parts.first, fun next begins also => parts.apart next also begins⟩

/-- The root is shared. -/
theorem Parts.root_not_mem_left (parts : Parts first second common left right)
    (isFirst : IsNormal first) (isSecond : IsNormal second)
    (shared : .root ∈ first → .root ∈ second) : .root ∉ left := by
  intro member
  have also : .root ∈ second := shared (parts.first ▸ List.mem_append_right common member)
  obtain ⟨before, behind, rfl⟩ := List.append_of_mem member
  rw [parts.first, ← List.append_assoc] at isFirst
  obtain ⟨rfl, rfl⟩ := List.append_eq_nil_iff.mp isFirst.root_front
  obtain ⟨before, others, whole⟩ := List.append_of_mem also
  rw [whole] at isSecond
  rw [isSecond.root_front, parts.second] at whole
  obtain rfl : right = .root :: others := whole
  exact parts.apart .root rfl rfl

theorem takeWhile_parents {front : List Component} (ups : ∀ component ∈ front, component = .parent)
    (rest : List Component) :
    ((front ++ rest).takeWhile fun component => component = .parent).length =
      front.length + (rest.takeWhile fun component => component = .parent).length := by
  rw [List.takeWhile_append_of_pos (by simpa using ups), List.length_append]

/-- Every step up of the first path is shared. -/
theorem Parts.parent_not_mem_left
    (parts : Parts origin.normalForm target.normalForm common left right)
    (reaches : Reaches origin target) : .parent ∉ left := by
  intro member
  obtain ⟨before, behind, rfl⟩ := List.append_of_mem member
  have normal := isNormal_normalForm origin
  rw [parts.first, ← List.append_assoc] at normal
  have ups := normal.parents_front
  have upsBefore : ∀ component ∈ before, component = .parent := fun component inside =>
    ups component (List.mem_append_right common inside)
  rcases reaches with ⟨absolute, -⟩ | ⟨-, -, fewer⟩
  · -- the root of an absolute path would stand before or behind a step up
    have root := root_mem_normalForm_iff.mpr absolute
    rw [parts.first, ← List.append_assoc] at root
    rcases List.mem_append.mp root with inFront | later
    · cases ups .root inFront
    · obtain ⟨others, rest, whole⟩ :=
        List.append_of_mem ((List.mem_cons.mp later).resolve_left nofun)
      rw [whole, ← List.cons_append, ← List.append_assoc] at normal
      exact absurd normal.root_front (by simp)
  · -- the second path has this step up, too, at the place where they part
    have upsCommon : ∀ component ∈ common, component = .parent := fun component inside =>
      ups component (List.mem_append_left before inside)
    unfold stepsUp at fewer
    rw [parts.first, parts.second, takeWhile_parents upsCommon, takeWhile_parents upsCommon,
      takeWhile_parents upsBefore, List.takeWhile_cons_of_pos (by decide),
      List.length_cons] at fewer
    have begins : (before ++ Component.parent :: behind).head? = some .parent := by
      cases before with
      | nil => rfl
      | cons next before => rw [upsBefore next List.mem_cons_self]; rfl
    refine parts.apart .parent begins ?_
    cases right with
    | nil =>
      rw [List.takeWhile_nil, List.length_nil] at fewer
      omega
    | cons next right =>
      by_cases up : next = .parent
      · exact congrArg some up
      · rw [List.takeWhile_cons_of_neg (by simpa using up), List.length_nil] at fewer
        omega

/-- **The way up** leads through names. -/
theorem Parts.left_names (parts : Parts origin.normalForm target.normalForm common left right)
    (reaches : Reaches origin target) : ∃ names : List (List UInt8), left = names.map .name := by
  have normal := isNormal_normalForm origin
  have noRoot : .root ∉ left := parts.root_not_mem_left normal (isNormal_normalForm target)
    fun root => root_mem_normalForm_iff.mpr
      (reaches.isAbsolute_iff.mp (root_mem_normalForm_iff.mp root))
  rw [parts.first] at normal
  obtain ⟨ups, names, shape⟩ := normal.of_append_right.ups_and_names noRoot
  cases ups with
  | zero => exact ⟨names, shape⟩
  | succ ups =>
    refine absurd ?_ (parts.parent_not_mem_left reaches)
    rw [shape, List.replicate_succ]
    exact List.mem_cons_self

/-- **The way down** does not lead through the root. -/
theorem Parts.root_not_mem_right
    (parts : Parts origin.normalForm target.normalForm common left right)
    (reaches : Reaches origin target) : .root ∉ right :=
  parts.symm.root_not_mem_left (isNormal_normalForm target) (isNormal_normalForm origin)
    fun root => root_mem_normalForm_iff.mpr
      (reaches.isAbsolute_iff.mpr (root_mem_normalForm_iff.mp root))

/-! ### Segments -/

/-- A component of a normal form is written as a segment that stands for it. -/
theorem isSegment_of_mem (member : component ∈ path.normalForm) (notRoot : component ≠ .root) :
    IsSegment component.bytes ∧ Component.ofSegment? component.bytes = some component ∧
      component.bytes ∈ path.segments := by
  have notCurrent : component ≠ .current := fun same =>
    (isNormal_normalForm path).noDot (same ▸ member)
  obtain ⟨segment, among, counts⟩ :=
    exists_segment (mem_components_of_mem_normalForm member) notRoot notCurrent
  rw [bytes_of_ofSegment? counts]
  exact ⟨isSegment_of_mem_segments among counts, counts, among⟩

/-- The segments of a path that is spelled by a text are spelled by texts. -/
theorem text_of_mem_segments (spelled : ∃ text, path.bytes = encode text) {segment : List UInt8}
    (among : segment ∈ path.segments) : ∃ text, segment = encode text := by
  obtain ⟨text, bytes⟩ := spelled
  have cut : path.segments = (splitOn '/' text).map encode := by
    have ascii : '/'.toNat < 0x80 := by decide
    unfold segments
    rw [bytes]
    exact splitOn_encode ascii text
  rw [cut] at among
  obtain ⟨piece, -, rfl⟩ := List.mem_map.mp among
  exact ⟨piece, rfl⟩

theorem encode_display (spelled : ∃ text, path.bytes = encode text)
    (member : component ∈ path.normalForm) (notRoot : component ≠ .root) :
    encode component.display = component.bytes := by
  obtain ⟨text, bytes⟩ := text_of_mem_segments spelled (isSegment_of_mem member notRoot).2.2
  unfold Component.display
  rw [bytes, decodeLossy_encode]

/-- A name of a way: it is neither empty nor a dot nor a step up, and holds no slash. -/
structure IsStepDown (name : List Char) : Prop where
  filled : name ≠ []
  moves : name ≠ ['.']
  down : name ≠ ['.', '.']
  free : '/' ∉ name

theorem isStepDown_display {bytes : List UInt8} (spelled : ∃ text, path.bytes = encode text)
    (member : .name bytes ∈ path.normalForm) : IsStepDown (decodeLossy bytes) := by
  obtain ⟨isSegment, counts, among⟩ := isSegment_of_mem member nofun
  obtain ⟨text, same⟩ := text_of_mem_segments spelled among
  obtain rfl : bytes = encode text := same
  rw [decodeLossy_encode]
  refine ⟨?_, ?_, ?_, ?_⟩
  · rintro rfl
    exact isSegment.filled rfl
  · rintro rfl
    exact isSegment.moves rfl
  · rintro rfl
    exact absurd counts (by decide)
  · have ascii : '/'.toNat < 0x80 := by decide
    exact mt (mem_encode_iff ascii).mpr isSegment.free

/-! ### The way -/

/-- As many steps up as there are names lead to where the names begin. -/
theorem foldl_ups (names : List (List UInt8)) (done : List Component) :
    (List.replicate names.length Component.parent).foldl extendNormal
      ((names.map .name).reverse ++ done) = done := by
  rw [← List.map_reverse, ← List.length_reverse]
  generalize names.reverse = stack
  induction stack with
  | nil => rfl
  | cons name stack ih => exact ih

theorem foldl_way {names : List (List UInt8)}
    (parts : Parts first second common (names.map .name) right) (normal : IsNormal second) :
    (List.replicate names.length Component.parent ++ right).foldl extendNormal first.reverse =
      second.reverse := by
  rw [parts.second] at normal ⊢
  rw [parts.first, List.reverse_append, List.foldl_append, foldl_ups, IsNormal.foldl_eq]
  · rw [List.reverse_append]
  · rw [List.reverse_reverse]
    exact normal

theorem normalForm_join {segments : List (List UInt8)}
    (plain : ∀ segment ∈ segments, IsSegment segment) :
    (origin.join ⟨joinWith slash segments⟩).normalForm =
      ((segments.filterMap Component.ofSegment?).foldl extendNormal
        origin.normalForm.reverse).reverse := by
  unfold normalForm normalize
  rw [components_join origin plain, List.foldl_append, List.reverse_reverse]

/-- The number of steps that the way goes up. -/
def ups (origin target : Path) : Nat :=
  (withoutCommon origin.normalForm target.normalForm).1.length

/-- What the way goes down, behind the steps up that lead to names. -/
def downs (origin target : Path) : List Component :=
  (withoutCommon origin.normalForm target.normalForm).2

/-- The segments of the way in bytes. -/
def steps (origin target : Path) : List (List UInt8) :=
  List.replicate (ups origin target) [dot, dot] ++ (downs origin target).map Component.bytes

theorem toList_relative (origin target : Path) :
    (relative origin target).toList =
      joinWith '/' (List.replicate (ups origin target) ['.', '.'] ++
        (downs origin target).map Component.display) := by
  have up : (withoutCommon origin.normalForm target.normalForm).1.map (fun _ => ['.', '.']) =
      List.replicate (ups origin target) ['.', '.'] := List.map_const' ..
  rw [← up]
  exact String.toList_ofList

theorem mem_downs (reaches : Reaches origin target) (member : component ∈ downs origin target) :
    component ∈ target.normalForm ∧ component ≠ .root := by
  obtain ⟨common, parts⟩ := withoutCommon_parts origin.normalForm target.normalForm
  constructor
  · rw [parts.second]
    exact List.mem_append_right common member
  · rintro rfl
    exact parts.root_not_mem_right reaches member

/-- The way down may begin with steps up, too. -/
theorem downs_shape (reaches : Reaches origin target) :
    ∃ (more : Nat) (names : List (List UInt8)),
      downs origin target = List.replicate more .parent ++ names.map .name := by
  obtain ⟨common, parts⟩ := withoutCommon_parts origin.normalForm target.normalForm
  have normal := isNormal_normalForm target
  rw [parts.second] at normal
  exact normal.of_append_right.ups_and_names (parts.root_not_mem_right reaches)

theorem isSegment_steps (reaches : Reaches origin target) :
    ∀ segment ∈ steps origin target, IsSegment segment := by
  unfold steps
  intro segment member
  rcases List.mem_append.mp member with up | down
  · rw [List.eq_of_mem_replicate up]
    exact ⟨by decide, by decide, by decide⟩
  · obtain ⟨component, among, rfl⟩ := List.mem_map.mp down
    have inTarget := mem_downs reaches among
    exact (isSegment_of_mem inTarget.1 inTarget.2).1

theorem filterMap_steps (reaches : Reaches origin target) :
    (steps origin target).filterMap Component.ofSegment? =
      List.replicate (ups origin target) .parent ++ downs origin target := by
  have up : Component.ofSegment? [dot, dot] = some .parent := by decide
  have down : ∀ component ∈ downs origin target,
      Component.ofSegment? component.bytes = some component := by
    intro component among
    have inTarget := mem_downs reaches among
    exact (isSegment_of_mem inTarget.1 inTarget.2).2.1
  unfold steps
  rw [List.filterMap_append, List.filterMap_replicate_of_some up, List.filterMap_map]
  congr 1
  generalize downs origin target = rest at down
  induction rest with
  | nil => rfl
  | cons component rest ih =>
    obtain ⟨here, later⟩ := List.forall_mem_cons.mp down
    rw [List.filterMap_cons_some (by exact here), ih later]

/-- The text of the way names its segments. -/
theorem ofString_relative (spelled : ∃ text, target.bytes = encode text)
    (reaches : Reaches origin target) :
    ofString (relative origin target) = ⟨joinWith slash (steps origin target)⟩ := by
  have ascii : '/'.toNat < 0x80 := by decide
  have down : ∀ component ∈ downs origin target,
      (encode ∘ Component.display) component = component.bytes := by
    intro component among
    have inTarget := mem_downs reaches among
    exact encode_display spelled inTarget.1 inTarget.2
  unfold ofString steps
  rw [toList_relative, encode_joinWith ascii, List.map_append, List.map_replicate, List.map_map,
    List.map_congr_left down]
  rfl

/-- **The way arrives.** -/
theorem normalForm_join_steps (reaches : Reaches origin target) :
    (origin.join ⟨joinWith slash (steps origin target)⟩).normalForm = target.normalForm := by
  obtain ⟨common, parts⟩ := withoutCommon_parts origin.normalForm target.normalForm
  obtain ⟨names, up⟩ := parts.left_names reaches
  have count : ups origin target = names.length := by
    unfold ups
    rw [up, List.length_map]
  rw [normalForm_join (isSegment_steps reaches), filterMap_steps reaches, count]
  rw [up] at parts
  exact (congrArg List.reverse (foldl_way parts (isNormal_normalForm target))).trans
    (List.reverse_reverse _)

/-- No way that arrives has fewer segments than the distance. -/
theorem distance_le {segments : List (List UInt8)}
    (plain : ∀ segment ∈ segments, IsSegment segment)
    (arrives : (origin.join ⟨joinWith slash segments⟩).normalForm = target.normalForm) :
    distance origin.normalForm target.normalForm ≤ segments.length := by
  rw [normalForm_join plain] at arrives
  calc distance origin.normalForm target.normalForm
    _ ≤ distance target.normalForm target.normalForm +
        (segments.filterMap Component.ofSegment?).length := by
      have walk := distance_foldl origin.normalForm.reverse target.normalForm
        (segments.filterMap Component.ofSegment?)
      rwa [List.reverse_reverse, arrives] at walk
    _ ≤ segments.length := by
      rw [distance_self, Nat.zero_add]
      exact List.length_filterMap_le _ segments

theorem distance_eq_zero_iff {first second : List Component} :
    distance first second = 0 ↔ second = first := by
  obtain ⟨common, parts⟩ := withoutCommon_parts first second
  unfold distance
  rw [Nat.add_eq_zero_iff, List.length_eq_zero_iff, List.length_eq_zero_iff, parts.eq_nil_iff]

/-- The way is steps up and then names, as many as the distance. -/
theorem relative_segments (spelled : ∃ text, target.bytes = encode text)
    (reaches : Reaches origin target) :
    ∃ (ups : Nat) (names : List (List Char)),
      (relative origin target).toList = joinWith '/' (List.replicate ups ['.', '.'] ++ names) ∧
      (∀ name ∈ names, IsStepDown name) ∧
      ups + names.length = distance origin.normalForm target.normalForm := by
  obtain ⟨more, names, shape⟩ := downs_shape reaches
  have dots : Component.display .parent = ['.', '.'] := by decide
  have named : Component.display ∘ Component.name = decodeLossy := rfl
  refine ⟨ups origin target + more, names.map decodeLossy, ?_, ?_, ?_⟩
  · rw [toList_relative, shape, List.map_append, List.map_replicate, List.map_map, dots, named,
      ← List.append_assoc, List.replicate_append_replicate]
  · intro name member
    obtain ⟨bytes, among, rfl⟩ := List.mem_map.mp member
    have inDowns : .name bytes ∈ downs origin target := by
      rw [shape]
      exact List.mem_append_right _ (List.mem_map_of_mem among)
    exact isStepDown_display spelled (mem_downs reaches inDowns).1
  · show _ = ups origin target + (downs origin target).length
    rw [shape, List.length_append, List.length_replicate, List.length_map, List.length_map,
      Nat.add_assoc]

/-- **The way is empty** only where there is nothing to go. -/
theorem relative_eq_empty_iff {ups : Nat} {names : List (List Char)}
    (text : (relative origin target).toList = joinWith '/' (List.replicate ups ['.', '.'] ++ names))
    (isStepDown : ∀ name ∈ names, IsStepDown name)
    (length : ups + names.length = distance origin.normalForm target.normalForm) :
    relative origin target = "" ↔ origin.normalForm = target.normalForm := by
  have filled : ∀ segment ∈ List.replicate ups ['.', '.'] ++ names, segment ≠ [] := by
    intro segment member
    rcases List.mem_append.mp member with up | down
    · rw [List.eq_of_mem_replicate up]
      exact List.cons_ne_nil _ _
    · exact (isStepDown segment down).filled
  calc relative origin target = ""
    _ ↔ joinWith '/' (List.replicate ups ['.', '.'] ++ names) = [] := by
      rw [← text]
      exact String.toList_inj.symm
    _ ↔ ups + names.length = 0 := by
      rw [joinWith_eq_nil_iff filled, ← List.length_eq_zero_iff, List.length_append,
        List.length_replicate]
    _ ↔ origin.normalForm = target.normalForm := by
      rw [length, distance_eq_zero_iff]
      exact eq_comm

/-- The way depends on the normal forms alone. -/
theorem relative_congr {origin' target' : Path}
    (sameOrigin : origin'.normalForm = origin.normalForm)
    (sameTarget : target'.normalForm = target.normalForm) :
    relative origin' target' = relative origin target := by
  unfold normalForm at sameOrigin sameTarget
  unfold relative wayText way
  rw [sameOrigin, sameTarget]

/-- **The way from one path to another** is a number of steps up and then names. It arrives, it is
empty only where there is nothing to go, no way that arrives has fewer segments, and it is the same
however the two paths are spelled. -/
theorem relative_isShortest (spelled : ∃ text, target.bytes = encode text)
    (reaches : Reaches origin target) :
    ∃ (ups : Nat) (names : List (List Char)),
      (relative origin target).toList = joinWith '/' (List.replicate ups ['.', '.'] ++ names) ∧
      (∀ name ∈ names, IsStepDown name) ∧
      (origin.join (ofString (relative origin target))).normalForm = target.normalForm ∧
      (relative origin target = "" ↔ origin.normalForm = target.normalForm) ∧
      (∀ segments : List (List UInt8), (∀ segment ∈ segments, IsSegment segment) →
        (origin.join ⟨joinWith slash segments⟩).normalForm = target.normalForm →
        ups + names.length ≤ segments.length) ∧
      ∀ origin' target' : Path, origin'.normalForm = origin.normalForm →
        target'.normalForm = target.normalForm →
        relative origin' target' = relative origin target := by
  obtain ⟨ups, names, text, isStepDown, length⟩ := relative_segments spelled reaches
  refine ⟨ups, names, text, isStepDown, ?_, relative_eq_empty_iff text isStepDown length, ?_, ?_⟩
  · rw [ofString_relative spelled reaches]
    exact normalForm_join_steps reaches
  · intro segments plain arrives
    rw [length]
    exact distance_le plain arrives
  · intro origin' target' sameOrigin sameTarget
    exact relative_congr sameOrigin sameTarget

/-- From a directory below the first one, with a dot in its spelling, to a neighbour of that one. -/
theorem relative_isShortest_neighbour :
    Reaches (ofString "a/./b") (ofString "../c/") ∧
      relative (ofString "a/./b") (ofString "../c/") = "../../../c" ∧
      ((ofString "a/./b").join (ofString "../../../c")).normalForm = (ofString "../c/").normalForm ∧
      ∃ (ups : Nat) (names : List (List Char)),
        "../../../c".toList = joinWith '/' (List.replicate ups ['.', '.'] ++ names) ∧
        ∀ segments : List (List UInt8), (∀ segment ∈ segments, IsSegment segment) →
          ((ofString "a/./b").join ⟨joinWith slash segments⟩).normalForm =
            (ofString "../c/").normalForm →
          ups + names.length ≤ segments.length := by
  have same : relative (ofString "a/./b") (ofString "../c/") = "../../../c" := by decide +kernel
  have spelled : ∃ text, (ofString "../c/").bytes = encode text := ⟨"../c/".toList, rfl⟩
  have reaches : Reaches (ofString "a/./b") (ofString "../c/") :=
    Or.inr ⟨by decide +kernel, by decide +kernel, by decide +kernel⟩
  obtain ⟨ups, names, text, -, arrives, -, shortest, -⟩ := relative_isShortest spelled reaches
  rw [same] at text arrives
  exact ⟨reaches, same, arrives, ups, names, text, shortest⟩

end RenderLink.Path
