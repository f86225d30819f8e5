/-
**Asset bases.**

With a live server the base of a file's asset URLs is the base of the server, without the slashes at
its end, and the way from the project root to the directory of the file. The way is read segment by
segment and by names alone, without a look at the disk.

* `leadsTo_wayText`: **the way between directories** has no empty segment and no dot, goes up only
  at its front, and leads from the one to the other.
* `leadsTo_assetBase`: the base of a file leads to its directory.
-/

import RenderLink.Proofs.FileSystem.Canonical
import RenderLink.Proofs.Path.Relative
import Mathlib.Data.List.DropRight

namespace RenderLink

open Text

namespace Path

/-! ### Reading a way -/

/-- The segments of a way; an empty way has none. -/
def waySegments (way : List Char) : List (List Char) :=
  if way = [] then [] else splitOn '/' way

/-- The location that a segment leads to, by names alone: an empty segment and a dot stay, two dots
go up, and any other segment goes down. -/
def lexicalStep (here : Location) (segment : List Char) : Location :=
  if segment = [] ∨ segment = ['.'] then here
  else if segment = ['.', '.'] then here.dropLast
  else here ++ [encode segment]

/-- A way from one directory to another, in its simplest form. -/
structure LeadsTo (root directory : Location) (way : List Char) : Prop where
  plain : ∀ segment ∈ waySegments way, segment ≠ [] ∧ segment ≠ ['.']
  /-- Steps up stand only at the front, and none is taken at the top of the tree. -/
  upsFirst : ∃ ups downs, waySegments way = List.replicate ups ['.', '.'] ++ downs ∧
    ['.', '.'] ∉ downs ∧ ups ≤ root.length
  arrives : (waySegments way).foldl lexicalStep root = directory
  empty_iff : way = [] ↔ directory = root
  descends_iff : ['.', '.'] ∉ waySegments way ↔ root <+: directory

theorem waySegments_joinWith {segments : List (List Char)}
    (filled : ∀ segment ∈ segments, segment ≠ []) (free : ∀ segment ∈ segments, '/' ∉ segment) :
    waySegments (joinWith '/' segments) = segments := by
  by_cases none : segments = []
  · simp [none, waySegments, joinWith]
  · rw [waySegments, if_neg (mt (joinWith_eq_nil_iff filled).1 none), splitOn_joinWith none free]

/-! ### The way between directories -/

/-- The components of the absolute path of a location. -/
def absolute (location : Location) : List Component := .root :: location.map .name

/-- The way goes up from what is left of the first location, and down what is left of the second. -/
theorem way_absolute (root directory : Location) :
    ∃ common left right, Parts root directory common left right ∧
      way (absolute root) (absolute directory) =
        List.replicate left.length ['.', '.'] ++ right.map decodeLossy := by
  have injective : Function.Injective Component.name := fun _ _ => Component.name.inj
  obtain ⟨shared, parts⟩ := withoutCommon_parts (root.map .name) (directory.map .name)
  obtain ⟨common, left, right, parts, ups, downs⟩ := parts.of_map injective
  refine ⟨common, left, right, parts, ?_⟩
  have rest : withoutCommon (absolute root) (absolute directory) =
      (left.map .name, right.map .name) := by
    rw [← ups, ← downs]
    simp [absolute, withoutCommon]
  have shown : (right.map Component.name).map Component.display = right.map decodeLossy := by
    simp [Component.display, Component.bytes]
  simp only [way, absolute, normalize_absolute]
  rw [← absolute, ← absolute, rest, shown, List.map_map]
  simp [Function.comp_def]

/-- A step up for each name that is left leads to where the names begin. -/
theorem foldl_steps_up (common left : Location) :
    (List.replicate left.length ['.', '.']).foldl lexicalStep (common ++ left) = common := by
  induction left using List.reverseRecOn with
  | nil => simp
  | append_singleton front last ih =>
    have up : lexicalStep (common ++ (front ++ [last])) ['.', '.'] = common ++ front := by
      rw [← List.append_assoc, lexicalStep, if_neg (by decide), if_pos rfl, List.dropLast_concat]
    rw [List.length_append, List.length_singleton, List.replicate_succ, List.foldl_cons, up, ih]

/-- A name in UTF-8 whose text is neither empty nor made of dots that lead elsewhere. -/
structure IsSpelled (name : Name) : Prop where
  bytes : encode (decodeLossy name) = name
  plain : decodeLossy name ≠ [] ∧ decodeLossy name ≠ ['.']
  down : decodeLossy name ≠ ['.', '.']
  free : '/' ∉ decodeLossy name

theorem isSpelled_encode {text : List Char} (isName : FileSystem.IsName (encode text)) :
    IsSpelled (encode text) := by
  have plain : text ≠ [] ∧ text ≠ ['.'] := by
    refine ⟨?_, ?_⟩
    · rintro rfl
      exact isName.plain (.inl rfl)
    · rintro rfl
      exact isName.plain (.inr rfl)
  have down : text ≠ ['.', '.'] := by
    rintro rfl
    exact isName.down rfl
  have free : '/' ∉ text := mt (mem_encode_iff (by decide)).2 isName.slash
  constructor <;> rw [decodeLossy_encode] <;> assumption

/-- Names lead down. -/
theorem foldl_steps_down (here : Location) {names : List Name}
    (spelled : ∀ name ∈ names, IsSpelled name) :
    (names.map decodeLossy).foldl lexicalStep here = here ++ names := by
  induction names generalizing here with
  | nil => simp
  | cons name rest ih =>
    obtain ⟨first, later⟩ := List.forall_mem_cons.1 spelled
    have step : lexicalStep here (decodeLossy name) = here ++ [name] := by
      rw [lexicalStep, if_neg (not_or.2 first.plain), if_neg first.down, first.bytes]
    rw [List.map_cons, List.foldl_cons, step, ih _ later, List.append_assoc, List.singleton_append]

/-- **The way between directories** leads from the one to the other. -/
theorem leadsTo_wayText (root : Location) {directory : Location}
    (spelled : ∀ name ∈ directory, IsSpelled name) :
    LeadsTo root directory (wayText (absolute root) (absolute directory)) := by
  obtain ⟨common, left, right, parts, walked⟩ := way_absolute root directory
  have downwards : ∀ name ∈ right, IsSpelled name := fun name member =>
    spelled name (parts.second ▸ List.mem_append_right common member)
  have each : ∀ segment ∈ way (absolute root) (absolute directory),
      (segment ≠ [] ∧ segment ≠ ['.']) ∧ '/' ∉ segment := by
    rw [walked]
    intro segment member
    rcases List.mem_append.1 member with up | down
    · rw [List.eq_of_mem_replicate up]
      decide
    · obtain ⟨name, among, rfl⟩ := List.mem_map.1 down
      exact ⟨(downwards name among).plain, (downwards name among).free⟩
  have filled : ∀ segment ∈ way (absolute root) (absolute directory), segment ≠ [] :=
    fun segment member => (each segment member).1.1
  have noStepUp : ['.', '.'] ∉ right.map decodeLossy := by
    intro member
    obtain ⟨name, among, same⟩ := List.mem_map.1 member
    exact (downwards name among).down same
  have segments : waySegments (wayText (absolute root) (absolute directory)) =
      way (absolute root) (absolute directory) :=
    waySegments_joinWith filled fun segment member => (each segment member).2
  refine ⟨?_, ?_, ?_, ?_, ?_⟩
  · rw [segments]
    exact fun segment member => (each segment member).1
  · refine ⟨left.length, right.map decodeLossy, segments.trans walked, noStepUp, ?_⟩
    simp [parts.first]
  · rw [segments, walked, List.foldl_append, parts.first, foldl_steps_up,
      foldl_steps_down common downwards, ← parts.second]
  · rw [wayText, joinWith_eq_nil_iff filled, walked, ← parts.eq_nil_iff]
    simp
  · rw [segments, walked, ← parts.left_eq_nil_iff]
    simp [noStepUp]

/-! ### Canonical paths -/

open FileSystem

variable {location above : Location} {name : Name}

theorem filterMap_ofSegment?_names {names : List Name} (isName : ∀ name ∈ names, IsName name) :
    names.filterMap Component.ofSegment? = names.map .name := by
  rw [← List.filterMap_eq_map]
  refine List.filterMap_congr fun name member => ?_
  simp [Component.ofSegment?, (isName name member).plain, (isName name member).down]

theorem components_pathOf (isName : ∀ name ∈ location, IsName name) :
    (pathOf location).components = absolute location := by
  cases location with
  | nil => decide
  | cons first rest =>
    have segments : (pathOf (first :: rest)).segments = [] :: first :: rest :=
      segments_pathOf (List.cons_ne_nil first rest) isName
    have isAbsolute : (pathOf (first :: rest)).isAbsolute = true := rfl
    have named : ([] :: first :: rest).filterMap Component.ofSegment? =
        (first :: rest).map .name := filterMap_ofSegment?_names isName
    rw [components, if_pos isAbsolute, segments, named, absolute]

/-- A file is in the directory above its location. -/
theorem directory_pathOf (isName : ∀ other ∈ above ++ [name], IsName other) :
    (pathOf (above ++ [name])).directory = absolute above := by
  have components : (pathOf (above ++ [name])).components = absolute above ++ [.name name] := by
    rw [components_pathOf isName, absolute, absolute, List.map_append, List.map_singleton,
      List.cons_append]
  rw [directory, components, List.getLast?_concat, List.dropLast_concat]

/-- The names of a canonical path in UTF-8 are spelled out. -/
theorem isSpelled_of_utf8 {text : List Char} (isName : ∀ name ∈ location, IsName name)
    (utf8 : (pathOf location).bytes = encode text) : ∀ name ∈ location, IsSpelled name := by
  intro name member
  have below : location ≠ [] := List.ne_nil_of_mem member
  have segments : [] :: location = (splitOn '/' text).map encode :=
    calc [] :: location
      _ = (pathOf location).segments := (segments_pathOf below isName).symm
      _ = splitOn (UInt8.ofNat '/'.toNat) (encode text) := by rw [← utf8]; rfl
      _ = (splitOn '/' text).map encode := splitOn_encode (by decide) text
  have among : name ∈ (splitOn '/' text).map encode := segments ▸ List.mem_cons_of_mem [] member
  obtain ⟨piece, -, rfl⟩ := List.mem_map.1 among
  exact isSpelled_encode (isName _ member)

/-! ### Trimming -/

/-- What is trimmed from a text are the slashes at its end. -/
theorem exists_slashes (text : List Char) :
    ∃ slashes, text = trimSlashes text ++ List.replicate slashes '/' := by
  have slashes : ∀ c ∈ text.rtakeWhile fun c => c = '/', c = '/' := fun c member => by
    simpa using List.mem_rtakeWhile_imp member
  have whole : trimSlashes text ++ (text.rtakeWhile fun c => c = '/') = text :=
    List.rdropWhile_append_rtakeWhile
  exact ⟨_, (List.eq_replicate_of_mem slashes ▸ whole).symm⟩

theorem getLast?_trimSlashes (text : List Char) : (trimSlashes text).getLast? ≠ some '/' := by
  intro slash
  have filled : trimSlashes text ≠ [] := List.ne_nil_of_mem (List.mem_of_getLast? slash)
  rw [List.getLast?_eq_some_getLast filled] at slash
  exact List.rdropWhile_last_not (fun c => c = '/') text filled
    (decide_eq_true (Option.some.inj slash))

/-! ### The base of a file -/

/-- **The base of a file** leads to its directory, below a base without slashes at its end. -/
theorem leadsTo_assetBase (base : String) {root above : Location} {name : Name} {text : List Char}
    (rootNames : ∀ other ∈ root, IsName other) (names : ∀ other ∈ above ++ [name], IsName other)
    (utf8 : (pathOf (above ++ [name])).bytes = encode text) :
    ∃ trimmed slashes way, base.toList = trimmed ++ List.replicate slashes '/' ∧
      trimmed.getLast? ≠ some '/' ∧
      assetBase base (pathOf root) (pathOf (above ++ [name])) =
        String.ofList (trimmed ++ '/' :: way) ∧
      LeadsTo root above way := by
  obtain ⟨slashes, trimmed⟩ := exists_slashes base.toList
  have spelled : ∀ other ∈ above, IsSpelled other := fun other member =>
    isSpelled_of_utf8 names utf8 other (List.mem_append_left _ member)
  refine ⟨_, slashes, wayText (absolute root) (absolute above), trimmed,
    getLast?_trimSlashes base.toList, ?_, leadsTo_wayText root spelled⟩
  rw [assetBase, components_pathOf rootNames, directory_pathOf names]

end Path

end RenderLink
