/-
**Values, lists and records.**

What the decoders of whole values mean. A value of any kind means what `Tree.json?` says; a choice
is made on that value. A list means its items, and a list of fixed length is taken apart item by
item (`requiredItem`, `nextItem`, `noItem`). A record means the state after its members, finished.

* `reads_value`, `reads_choice`: values of any kind, and values of one of several shapes.
* `Reads.listOf`, `reads_pairOfTexts`: lists of any length, and of two strings.
* `reads_object`, `reads_objectOrList`: records.
-/

import Mathlib.Data.List.Forall2
import RenderLink.Proofs.Json.Members

namespace RenderLink.Json

variable {α β σ : Type} {more words : List (List Char)} {text rest : List Char}

/-! ### Values that are kept -/

theorem mapM_kept (f : α → Option β) (items : List α) :
    (items.mapM fun item => kept (f item)) = kept (items.mapM f) := by
  induction items with
  | nil => rfl
  | cons item items ih =>
    rw [List.mapM_cons, List.mapM_cons, ih]
    cases f item with
    | none => rfl
    | some value => cases items.mapM f <;> rfl

/-- Every item has a value. -/
theorem mapM_eq_ok_iff {meaning : α → Except ReadError β} {items : List α} {values : List β} :
    items.mapM meaning = .ok values ↔
      List.Forall₂ (fun item value => meaning item = .ok value) items values := by
  induction items generalizing values with
  | nil => cases values <;> simp [pure, Except.pure]
  | cons item items ih =>
    rw [List.mapM_cons]
    cases read : meaning item with
    | error error => simp [bind, Except.bind, List.forall₂_cons_left_iff, read]
    | ok value =>
      cases others : items.mapM meaning with
      | error error =>
        simp [bind, Except.bind, List.forall₂_cons_left_iff, read, ← ih, others]
      | ok found =>
        simp [bind, Except.bind, pure, Except.pure, List.forall₂_cons_left_iff, read, ← ih, others,
          eq_comm]

theorem mapM_eq_some_iff {value? : α → Option β} {items : List α} {values : List β} :
    items.mapM value? = some values ↔
      List.Forall₂ (fun item value => value? item = some value) items values := by
  rw [← kept_eq_ok_iff, ← mapM_kept, mapM_eq_ok_iff]
  simp only [kept_eq_ok_iff]

theorem exists_of_mapM_eq_some {value? : α → Option β} {items : List α} {values : List β} {item : α}
    (read : items.mapM value? = some values) (member : item ∈ items) :
    ∃ value, value? item = some value := by
  have each := mapM_eq_some_iff.mp read
  clear read
  induction each with
  | nil => cases member
  | @cons first value _ _ found _ ih =>
    rcases List.mem_cons.mp member with rfl | later
    · exact ⟨value, found⟩
    · exact ih later

/-- Every value is that of an item. -/
theorem exists_source_of_mapM {value? : α → Option β} {items : List α} {values : List β} {value : β}
    (read : items.mapM value? = some values) (member : value ∈ values) :
    ∃ item ∈ items, value? item = some value := by
  have each := mapM_eq_some_iff.mp read
  clear read
  induction each with
  | nil => cases member
  | @cons item _ items _ found _ ih =>
    rcases List.mem_cons.mp member with rfl | later
    · exact ⟨item, List.mem_cons_self, found⟩
    · obtain ⟨source, present, same⟩ := ih later
      exact ⟨source, List.mem_cons_of_mem _ present, same⟩

/-- Some item has no value. -/
theorem exists_of_mapM_eq_error {meaning : α → Except ReadError β} {items : List α}
    {error : ReadError} (failed : items.mapM meaning = .error error) :
    ∃ item ∈ items, meaning item = .error error := by
  induction items with
  | nil => cases failed
  | cons item items ih =>
    rw [List.mapM_cons] at failed
    cases read : meaning item with
    | error problem =>
      rw [read] at failed
      cases failed
      exact ⟨item, List.mem_cons_self, read⟩
    | ok value =>
      cases others : items.mapM meaning with
      | error problem =>
        rw [read, others] at failed
        cases failed
        obtain ⟨other, member, same⟩ := ih others
        exact ⟨other, List.mem_cons_of_mem _ member, same⟩
      | ok values =>
        rw [read, others] at failed
        cases failed

/-- Members that are collected, the last one first. -/
theorem readMembers_collecting (value? : Tree → Option α) (done : List (String × α))
    (members : List (StringText × Tree)) :
    readMembers (fun done key tree => (kept (value? tree)).map fun found => (key, found) :: done)
        done members =
      kept ((members.mapM (Tree.member? value?)).map fun found => found.reverse ++ done) := by
  induction members generalizing done with
  | nil => rfl
  | cons member members ih =>
    obtain ⟨key, value⟩ := member
    rw [readMembers, List.mapM_cons, Tree.member?]
    dsimp only
    cases key.value? with
    | none => rfl
    | some name =>
      cases value? value with
      | none => rfl
      | some found =>
        show readMembers _ ((name, found) :: done) members = _
        rw [ih]
        cases members.mapM (Tree.member? value?) with
        | none => rfl
        | some others => simp [kept]

/-- A result is given without taking anything. -/
theorem rest_of_ofExcept {outcome : Except ReadError α} {value : α}
    (read : (Reader.ofExcept outcome).run text = .ok (value, rest)) : text = rest := by
  cases outcome with
  | ok found => exact (Reader.run_pure_eq_ok_iff.mp read).2
  | error error => cases read

/-! ### Values of any kind -/

/-- Brackets that do not nest too deep. -/
def nestedOf (levels : Nat) (inside : Nat → Except ReadError α) : Except ReadError α :=
  match levels with
  | 0 => .error .notJson
  | inner + 1 => inside inner

theorem Answers.nested {levels : Nat} {outcome : Nat → Except ReadError α}
    {inside : Nat → Reader α}
    (answers : ∀ inner, levels = inner + 1 →
      Answers more (outcome inner) ((inside inner).run text)) :
    Answers more (nestedOf levels outcome) ((Decoder.nested levels inside).run text) := by
  cases levels with
  | zero => exact .error .notJson
  | succ inner => exact answers inner rfl

/-- The end of a list, behind its items. -/
theorem closeList_answers (spaced : Spaced ([']'] :: more) text) {next : Unit → Reader α}
    {outcome : Except ReadError α}
    (second : ∀ {rest}, Spaced more rest → Answers more outcome ((next ()).run rest)) :
    Answers more outcome ((closeList >>= next).run text) := by
  obtain ⟨rest, behind, taken⟩ := run_mark spaced (by decide)
  have closed : closeList.run text = .ok ((), rest) := taken
  rw [Reader.run_bind_of_ok closed]
  exact second behind

/-- The end of an object, behind its members. -/
theorem closeObject_answers (spaced : Spaced (['\x7d'] :: more) text) {next : Unit → Reader α}
    {outcome : Except ReadError α}
    (second : ∀ {rest}, Spaced more rest → Answers more outcome ((next ()).run rest)) :
    Answers more outcome ((closeObject >>= next).run text) := by
  obtain ⟨rest, behind, taken⟩ := run_mark spaced (by decide)
  have closed : closeObject.run text = .ok ((), rest) := taken
  rw [Reader.run_bind_of_ok closed]
  exact second behind

/-- What an object's members mean when all of them are collected. -/
theorem fieldsRead_collecting {levels : Nat}
    (inner : Reads (Decoder.value levels) fun tree => kept (tree.json? levels)) :
    FieldsRead (fun done key => .ok ((Decoder.value levels).map fun found => (key, found) :: done))
      fun (done : List (String × Json)) key tree =>
        (kept (tree.json? levels)).map fun found => (key, found) :: done :=
  fun done key => .value (inner.map fun found => (key, found) :: done)

/-- What the brackets of a value hold is read as the values of its trees. -/
def ReadsInside (levels : Nat) : Prop :=
  ∀ inner, levels = inner + 1 → Reads (Decoder.value inner) fun tree => kept (tree.json? inner)

namespace ReadsValue

variable {levels : Nat}

theorem null_answers (spaced : Spaced (Tree.null.words ++ more) text) :
    Answers more (kept (Tree.null.json? levels)) ((Decoder.value levels).read.run text) := by
  obtain ⟨rest, behind, met⟩ := Spaced.read (c := 'n') spaced (by decide)
  rw [met, Decoder.value.eq_def, if_pos rfl, Reader.run_bind_of_ok (Reader.run_expect_append _ _)]
  cases levels <;> exact .ok behind

theorem bool_answers {value : Bool} (spaced : Spaced ((Tree.bool value).words ++ more) text) :
    Answers more (kept ((Tree.bool value).json? levels))
      ((Decoder.value levels).read.run text) := by
  cases value with
  | true =>
    obtain ⟨rest, behind, met⟩ := Spaced.read (c := 't') spaced (by decide)
    rw [met, Decoder.value.eq_def, if_neg (by decide), if_pos rfl,
      Reader.run_bind_of_ok (Reader.run_expect_append _ _)]
    cases levels <;> exact .ok behind
  | false =>
    obtain ⟨rest, behind, met⟩ := Spaced.read (c := 'f') spaced (by decide)
    rw [met, Decoder.value.eq_def, if_neg (by decide), if_neg (by decide), if_pos rfl,
      Reader.run_bind_of_ok (Reader.run_expect_append _ _)]
    cases levels <;> exact .ok behind

theorem number_answers {number : NumberText} (closing : Closing more)
    (spaced : Spaced ((Tree.number number).words ++ more) text) :
    Answers more (kept ((Tree.number number).json? levels))
      ((Decoder.value levels).read.run text) := by
  obtain ⟨first, others, rest, shape, start, behind, met⟩ := Spaced.read_number spaced
  rw [met, Decoder.value.eq_def, if_neg (ne_of_start start (by decide)),
    if_neg (ne_of_start start (by decide)), if_neg (ne_of_start start (by decide)),
    if_pos start]
  have value : (Tree.number number).json? levels =
      number.value?.bind fun value => some (.number value) := by
    cases levels <;> exact Option.map_eq_bind
  rw [value, kept_bind]
  exact .number shape (closing.stops behind) fun value => .ok behind

theorem string_answers {string : StringText}
    (spaced : Spaced ((Tree.string string).words ++ more) text) :
    Answers more (kept ((Tree.string string).json? levels))
      ((Decoder.value levels).read.run text) := by
  obtain ⟨rest, behind, met⟩ := Spaced.read_string spaced
  rw [met, Decoder.value.eq_def, if_neg (by decide), if_neg (by decide), if_neg (by decide),
    if_neg (by decide), if_pos rfl]
  have value : (Tree.string string).json? levels =
      string.value?.bind fun value => some (.string value) := by
    cases levels <;> exact Option.map_eq_bind
  rw [value, kept_bind]
  refine .string fun value => ?_
  rw [String.ofList_toList]
  exact .ok behind

theorem list_answers (inside : ReadsInside levels) {items : List Tree}
    (spaced : Spaced ((Tree.list items).words ++ more) text) :
    Answers more (kept ((Tree.list items).json? levels))
      ((Decoder.value levels).read.run text) := by
  obtain ⟨rest, behind, met⟩ := Spaced.read_list spaced
  rw [met]
  cases levels with
  | zero => exact .error .notJson
  | succ inner =>
    have answers := (inside inner rfl).elements_answers behind
    rw [mapM_kept] at answers
    rw [Tree.json?, Option.map_eq_bind, kept_bind]
    exact answers.bind fun _ behind => closeList_answers behind fun behind => .ok behind

theorem object_answers (inside : ReadsInside levels) {members : List (StringText × Tree)}
    (spaced : Spaced ((Tree.object members).words ++ more) text) :
    Answers more (kept ((Tree.object members).json? levels))
      ((Decoder.value levels).read.run text) := by
  obtain ⟨rest, behind, met⟩ := Spaced.read_object spaced
  rw [met]
  cases levels with
  | zero => exact .error .notJson
  | succ inner =>
    have answers := membersReader_answers (fieldsRead_collecting (inside inner rfl)) [] behind
    rw [readMembers_collecting] at answers
    have value : kept ((Tree.object members).json? (inner + 1)) =
        kept ((members.mapM (Tree.member? (Tree.json? inner))).map fun found =>
          found.reverse ++ []) >>= fun reversed => .ok (.object reversed.reverse) := by
      rw [Tree.json?]
      cases members.mapM (Tree.member? (Tree.json? inner)) <;> simp [kept, bind, Except.bind]
    rw [value]
    exact answers.bind fun _ behind => closeObject_answers behind fun behind => .ok behind

/-- What is read behind an opening bracket, up to its closing one, is a list. -/
theorem list_spelled {inner : Nat}
    (inside : Reads (Decoder.value inner) fun tree => kept (tree.json? inner)) {others : List Char}
    {value : Json} (met : text.dropWhile Reader.isSpace = '[' :: others)
    (read : (elements (Decoder.value inner) >>= fun items => closeList >>= fun _ =>
      pure (Json.list items)).run others = .ok (value, rest))
    (behind : Spaced more rest) : ∃ tree : Tree, Spaced (tree.words ++ more) text := by
  obtain ⟨items, after, taken, closing⟩ := Reader.run_bind_eq_ok_iff.mp read
  obtain ⟨_, closed, -⟩ := Reader.run_bind_pure_eq_ok_iff.mp closing
  obtain ⟨trees, spaced⟩ := inside.items_spelled true taken (.of_mark closed behind)
  exact ⟨.list trees, .of_list met spaced⟩

/-- What is read behind an opening brace, up to its closing one, is an object. -/
theorem object_spelled {inner : Nat}
    (inside : Reads (Decoder.value inner) fun tree => kept (tree.json? inner)) {others : List Char}
    {value : Json} (met : text.dropWhile Reader.isSpace = '\x7b' :: others)
    (read : (members (fun done key => .ok ((Decoder.value inner).map fun found =>
      (key, found) :: done)) [] >>= fun reversed => closeObject >>= fun _ =>
        pure (Json.object reversed.reverse)).run others = .ok (value, rest))
    (behind : Spaced more rest) : ∃ tree : Tree, Spaced (tree.words ++ more) text := by
  obtain ⟨found, after, taken, closing⟩ := Reader.run_bind_eq_ok_iff.mp read
  obtain ⟨_, closed, -⟩ := Reader.run_bind_pure_eq_ok_iff.mp closing
  obtain ⟨trees, spaced⟩ :=
    members_spelled (fieldsRead_collecting inside) true taken (.of_mark closed behind)
  exact ⟨.object trees, .of_object met spaced⟩

/-- What is read as a value is the text of a tree. -/
theorem spelled (inside : ReadsInside levels) {value : Json}
    (read : (Decoder.value levels).read.run text = .ok (value, rest)) (behind : Spaced more rest) :
    ∃ tree : Tree, Spaced (tree.words ++ more) text := by
  obtain ⟨head, others, met, found⟩ := Decoder.exists_of_read read
  rw [Decoder.value.eq_def] at found
  split at found
  · next first => exact ⟨.null, .of_expect (first ▸ met) found behind⟩
  split at found
  · next first => exact ⟨.bool true, .of_expect (first ▸ met) found behind⟩
  split at found
  · next first => exact ⟨.bool false, .of_expect (first ▸ met) found behind⟩
  split at found
  · obtain ⟨_, taken, -⟩ := Reader.run_bind_pure_eq_ok_iff.mp found
    obtain ⟨digits, rfl, isNumber⟩ := isNumber_of_numeral taken
    exact ⟨.number ⟨_, isNumber⟩, .of_dropWhile met behind⟩
  split at found
  · next first =>
    obtain ⟨_, taken, -⟩ := Reader.run_bind_pure_eq_ok_iff.mp found
    obtain ⟨string, spaced⟩ := Spaced.of_stringBody (first ▸ met) taken behind
    exact ⟨.string string, spaced⟩
  split at found
  · next first =>
    cases levels with
    | zero => cases found
    | succ inner => exact list_spelled (inside inner rfl) (first ▸ met) found behind
  split at found
  · next first =>
    cases levels with
    | zero => cases found
    | succ inner => exact object_spelled (inside inner rfl) (first ▸ met) found behind
  cases found

/-- **A value is read as the value of its tree**, if the values inside it are. -/
theorem of_inside (inside : ReadsInside levels) :
    Reads (Decoder.value levels) fun tree => kept (tree.json? levels) where
  agrees {tree more text} closing spaced := by
    cases tree with
    | null => exact null_answers spaced
    | bool value => exact bool_answers spaced
    | number number => exact number_answers closing spaced
    | string string => exact string_answers spaced
    | list items => exact list_answers inside spaced
    | object members => exact object_answers inside spaced
  spelled read behind := spelled inside read behind

end ReadsValue

/-- **A value of any kind is read as the value of its tree.** -/
theorem reads_value (levels : Nat) :
    Reads (Decoder.value levels) fun tree => kept (tree.json? levels) := by
  induction levels with
  | zero => exact ReadsValue.of_inside fun _ same => by cases same
  | succ levels ih => exact ReadsValue.of_inside fun _ same => Nat.succ.inj same ▸ ih

/-! ### Trees without a value -/

/-- A list has no value when an item has none. -/
theorem json?_list_eq_none {levels : Nat} {items : List Tree} {item : Tree} (member : item ∈ items)
    (unreadable : item.json? levels = none) : (Tree.list items).json? (levels + 1) = none := by
  rw [Tree.json?, Option.map_eq_none_iff, Option.eq_none_iff_forall_ne_some]
  intro values read
  obtain ⟨value, found⟩ := exists_of_mapM_eq_some read member
  rw [unreadable] at found
  cases found

/-- An object has no value when a key or the value of a member has none. -/
theorem json?_object_eq_none {levels : Nat} {members : List (StringText × Tree)}
    {member : StringText × Tree} (present : member ∈ members)
    (unreadable : member.1.value? = none ∨ member.2.json? levels = none) :
    (Tree.object members).json? (levels + 1) = none := by
  rw [Tree.json?, Option.map_eq_none_iff, Option.eq_none_iff_forall_ne_some]
  intro values read
  obtain ⟨value, found⟩ := exists_of_mapM_eq_some read present
  rw [Tree.member?] at found
  rcases unreadable with keyless | unreadable
  · rw [keyless] at found
    cases found
  · rw [unreadable] at found
    cases known : member.1.value? <;> simp [known] at found

/-! ### Values of one of several shapes -/

/-- The shape that the value of a tree has. -/
def choiceOf (name : String) (levels : Nat) (shape? : Json → Option α) (tree : Tree) :
    Except ReadError α :=
  kept (tree.json? levels) >>= fun found =>
    match shape? found with
    | some shaped => .ok shaped
    | none => .error (.noVariant name)

theorem choiceOf_eq_ok_iff {name : String} {levels : Nat} {shape? : Json → Option α} {tree : Tree}
    {value : α} :
    choiceOf name levels shape? tree = .ok value ↔
      ∃ found, tree.json? levels = some found ∧ shape? found = some value := by
  refine bind_eq_ok_iff.trans (exists_congr fun found => and_congr kept_eq_ok_iff ?_)
  cases shape? found <;> simp

theorem reads_choice (name : String) (levels : Nat) (shape? : Json → Option α) :
    Reads (Decoder.choice name levels shape?) (choiceOf name levels shape?) where
  agrees closing spaced := by
    have answers := (reads_value levels).agrees closing spaced
    obtain ⟨others, met⟩ := Tree.exists_read spaced
    rw [met] at answers ⊢
    refine answers.bind fun {found _} _ behind => ?_
    cases shape? found with
    | none => exact .error _
    | some shaped => exact .ok behind
  spelled read behind := by
    obtain ⟨head, others, met, chosen⟩ := Decoder.exists_of_read read
    obtain ⟨found, after, taken, last⟩ := Reader.run_bind_eq_ok_iff.mp chosen
    cases shaped : shape? found with
    | none =>
      rw [shaped] at last
      cases last
    | some value =>
      rw [shaped] at last
      cases last
      exact (reads_value levels).spelled (Decoder.read_of_met met taken) behind

/-! ### Lists -/

/-- A reader takes the items of a list and its closing bracket, and gives what the items mean. -/
structure ReadsItems (first : Bool) (reader : Reader α)
    (meaning : List Tree → Except ReadError α) : Prop where
  agrees : ∀ {items : List Tree} {more : List (List Char)} {text : List Char},
    Spaced (itemWords first items ++ [']'] :: more) text →
      Answers more (meaning items) (reader.run text)
  spelled : ∀ {more : List (List Char)} {text rest : List Char} {value : α},
    reader.run text = .ok (value, rest) → Spaced more rest →
      ∃ items : List Tree, Spaced (itemWords first items ++ [']'] :: more) text

/-- What a list means whose items mean something, and another tree. -/
def listOr (levels : Nat) (items : Nat → List Tree → Except ReadError α)
    (other : Tree → Except ReadError α) : Tree → Except ReadError α
  | .list trees => nestedOf levels fun inner => items inner trees
  | tree => other tree

theorem listOr_eq_ok_iff {levels : Nat} {items : Nat → List Tree → Except ReadError α}
    {other : Tree → Except ReadError α} {tree : Tree} {value : α} :
    listOr levels items other tree = .ok value ↔
      (∃ trees inner, tree = .list trees ∧ levels = inner + 1 ∧ items inner trees = .ok value) ∨
        ((∀ trees, tree ≠ .list trees) ∧ other tree = .ok value) := by
  cases tree with
  | list trees => cases levels <;> simp [listOr, nestedOf]
  | _ => simp [listOr]

theorem reads_listOr {levels : Nat} {inside : Nat → Reader α}
    {items : Nat → List Tree → Except ReadError α} {decoder : Decoder α}
    {meaning : Tree → Except ReadError α}
    (itemsRead : ∀ inner, ReadsItems true (inside inner) (items inner))
    (reads : Reads decoder meaning) :
    Reads (fun head => if head = '[' then Decoder.nested levels inside else decoder head)
      (listOr levels items meaning) where
  agrees {tree more text} closing spaced := by
    cases tree with
    | list trees =>
      obtain ⟨rest, behind, met⟩ := Spaced.read_list spaced
      rw [met, if_pos rfl]
      exact .nested fun inner _ => (itemsRead inner).agrees behind
    | number text =>
      refine .of_same reads closing spaced ?_
      rw [if_neg (Tree.head_number_ne text (by decide))]
    | bool value => cases value <;> exact .of_same reads closing spaced rfl
    | _ => exact .of_same reads closing spaced rfl
  spelled read behind := by
    obtain ⟨head, others, met, found⟩ := Decoder.exists_of_read read
    split at found
    · next first =>
      cases levels with
      | zero => cases found
      | succ inner =>
        obtain ⟨trees, spaced⟩ := (itemsRead inner).spelled found behind
        exact ⟨.list trees, .of_list (first ▸ met) spaced⟩
    · exact reads.spelled (Decoder.read_of_met met found) behind

/-- A list of values means the values of its items. -/
theorem Reads.elements_closeList {decoder : Decoder α} {meaning : Tree → Except ReadError α}
    (reads : Reads decoder meaning) :
    ReadsItems true (do let found ← elements decoder; closeList; pure found)
      fun items => items.mapM meaning where
  agrees {items more text} spaced := by
    rw [← bind_pure (items.mapM meaning)]
    exact (reads.elements_answers spaced).bind fun _ behind =>
      closeList_answers behind fun behind => .ok behind
  spelled read behind := by
    obtain ⟨values, after, taken, closing⟩ := Reader.run_bind_eq_ok_iff.mp read
    obtain ⟨_, closed, -⟩ := Reader.run_bind_pure_eq_ok_iff.mp closing
    exact reads.items_spelled true taken (.of_mark closed behind)

theorem Reads.listOf {levels : Nat} {decoder : Nat → Decoder α}
    {meaning : Nat → Tree → Except ReadError α}
    (reads : ∀ inner, Reads (decoder inner) (meaning inner)) :
    Reads (Decoder.listOf levels decoder)
      (listOr levels (fun inner items => items.mapM (meaning inner)) (mismatched .list)) :=
  reads_listOr (fun inner => (reads inner).elements_closeList) (reads_mismatch .list)

/-! ### Lists of fixed length -/

/-- The next item, if there is one. -/
def nextItem (meaning : Tree → Except ReadError α)
    (next : Option α → List Tree → Except ReadError β) : List Tree → Except ReadError β
  | [] => next none []
  | item :: items => meaning item >>= fun value => next (some value) items

/-- The next item, which there must be. -/
def requiredItem (meaning : Tree → Except ReadError α) (place : Nat) (expected : Expected)
    (next : α → List Tree → Except ReadError β) : List Tree → Except ReadError β
  | [] => .error (.wrongLength place expected)
  | item :: items => meaning item >>= fun value => next value items

/-- No further item. -/
def noItem (value : α) : List Tree → Except ReadError α
  | [] => .ok value
  | _ :: _ => .error .notJson

theorem readsItems_closeList (first : Bool) (value : α) :
    ReadsItems first (do closeList; pure value) (noItem value) where
  agrees {items more text} spaced := by
    cases items with
    | nil => exact closeList_answers spaced fun behind => .ok behind
    | cons item items =>
      have refused : closeList.run text = .error .notJson := by
        rw [itemWords, List.append_assoc, List.append_assoc] at spaced
        cases first with
        | true =>
          obtain ⟨c, word, others, shape, visible, -, notEnd⟩ := item.exists_words
          rw [shape] at spaced
          exact run_mark_of_ne spaced visible notEnd
        | false => exact run_mark_of_ne (d := ',') spaced (by decide) (by decide)
      rw [Reader.run_bind_of_error refused]
      exact .error .notJson
  spelled read behind := by
    obtain ⟨_, closed, -⟩ := Reader.run_bind_pure_eq_ok_iff.mp read
    exact ⟨[], .of_mark closed behind⟩

/-- The next item of a list is read as its tree, if there is one. -/
theorem Reads.nextItem {decoder : Decoder α} {meaning : Tree → Except ReadError α}
    (reads : Reads decoder meaning) (first : Bool) {next : Option α → Reader β}
    {behind : Option α → List Tree → Except ReadError β}
    (readsBehind : ∀ value, ReadsItems false (next value) (behind value)) :
    ReadsItems first (element? decoder first >>= next) (nextItem meaning behind) where
  agrees {items more text} spaced := by
    rw [element?, Reader.bind_assoc]
    cases items with
    | nil =>
      obtain ⟨rest, spaced, ended⟩ := beforeElement_end first spaced
      rw [Reader.run_bind_of_ok ended]
      exact (readsBehind none).agrees
        (show Spaced (itemWords false [] ++ [']'] :: more) _ from spaced)
    | cons item items =>
      rw [itemWords, List.append_assoc, List.append_assoc] at spaced
      obtain ⟨rest, spaced, reached⟩ := beforeElement_item spaced
      rw [Reader.run_bind_of_ok reached, if_pos rfl, Reader.bind_assoc]
      exact (reads.agrees (closing_items items more) spaced).bind fun _ spaced =>
        (readsBehind _).agrees spaced
  spelled {more text rest value} read spaced := by
    rw [element?, Reader.bind_assoc] at read
    obtain ⟨found, between, reached, continued⟩ := Reader.run_bind_eq_ok_iff.mp read
    cases found with
    | true =>
      rw [if_pos rfl, Reader.bind_assoc] at continued
      obtain ⟨one, after, taken, last⟩ := Reader.run_bind_eq_ok_iff.mp continued
      obtain ⟨items, spaced⟩ := (readsBehind _).spelled last spaced
      obtain ⟨item, spaced⟩ := reads.spelled taken spaced
      refine ⟨item :: items, ?_⟩
      rw [itemWords, List.append_assoc, List.append_assoc]
      exact .of_beforeElement reached spaced
    | false =>
      obtain ⟨met, ended⟩ := end_of_beforeElement reached
      obtain ⟨items, spaced⟩ := (readsBehind none).spelled continued spaced
      cases items with
      | nil => exact ⟨[], .of_dropped (met ▸ spaced)⟩
      | cons item items =>
        -- The text goes on with the closing bracket and not with a comma.
        obtain ⟨others, -, comma⟩ := Spaced.dropWhile (c := ',') spaced (by decide)
        obtain ⟨last, rfl⟩ := List.head?_eq_some_iff.mp ended
        cases comma

/-- The next item of a list is read as its tree, and there must be one. -/
theorem Reads.requiredItem {decoder : Decoder α} {meaning : Tree → Except ReadError α}
    (reads : Reads decoder meaning) (place : Nat) (expected : Expected) {next : α → Reader β}
    {behind : α → List Tree → Except ReadError β}
    (readsBehind : ∀ value, ReadsItems false (next value) (behind value)) :
    ReadsItems (place = 0) (Decoder.requiredElement decoder place expected >>= next)
      (requiredItem meaning place expected behind) where
  agrees {items more text} spaced := by
    rw [Decoder.requiredElement, Reader.bind_assoc, element?, Reader.bind_assoc]
    cases items with
    | nil =>
      obtain ⟨rest, spaced, ended⟩ := beforeElement_end (place = 0) spaced
      rw [Reader.run_bind_of_ok ended]
      exact .error _
    | cons item items =>
      rw [itemWords, List.append_assoc, List.append_assoc] at spaced
      obtain ⟨rest, spaced, reached⟩ := beforeElement_item spaced
      rw [Reader.run_bind_of_ok reached, if_pos rfl, Reader.bind_assoc]
      exact (reads.agrees (closing_items items more) spaced).bind fun _ spaced =>
        (readsBehind _).agrees spaced
  spelled {more text rest value} read spaced := by
    rw [Decoder.requiredElement, Reader.bind_assoc, element?, Reader.bind_assoc] at read
    obtain ⟨found, between, reached, continued⟩ := Reader.run_bind_eq_ok_iff.mp read
    cases found with
    | true =>
      rw [if_pos rfl, Reader.bind_assoc] at continued
      obtain ⟨one, after, taken, last⟩ := Reader.run_bind_eq_ok_iff.mp continued
      obtain ⟨items, spaced⟩ := (readsBehind _).spelled last spaced
      obtain ⟨item, spaced⟩ := reads.spelled taken spaced
      refine ⟨item :: items, ?_⟩
      rw [itemWords, List.append_assoc, List.append_assoc]
      exact .of_beforeElement reached spaced
    | false => cases continued

/-- The two strings of a pair. -/
def pairOf (levels : Nat) : Tree → Except ReadError (String × String) :=
  listOr levels
    (fun _ => requiredItem textOf 0 .pair fun first => requiredItem textOf 1 .pair fun second =>
      noItem (first, second))
    (mismatched .pair)

theorem reads_pairOfTexts (levels : Nat) : Reads (Decoder.pairOfTexts levels) (pairOf levels) :=
  reads_listOr
    (fun _ => reads_text.requiredItem 0 .pair fun first =>
      reads_text.requiredItem 1 .pair fun second =>
      readsItems_closeList false (first, second))
    (reads_mismatch .pair)

/-! ### Records -/

/-- What an object means whose members are read into a state and finished. -/
def objectOf (name : String) (levels : Nat) (step : Nat → Step σ) (start : σ)
    (finish : σ → Except ReadError α) : Tree → Except ReadError α
  | .object members =>
    nestedOf levels fun inner => readMembers (step inner) start members >>= finish
  | tree => mismatched (.record name) tree

theorem objectOf_eq_ok_iff {name : String} {levels : Nat} {step : Nat → Step σ} {start : σ}
    {finish : σ → Except ReadError α} {tree : Tree} {value : α} :
    objectOf name levels step start finish tree = .ok value ↔
      ∃ members inner final, tree = .object members ∧ levels = inner + 1 ∧
        readMembers (step inner) start members = .ok final ∧ finish final = .ok value := by
  cases tree with
  | object members => cases levels <;> simp [objectOf, nestedOf, bind_eq_ok_iff]
  | _ => exact iff_of_false (by unfold objectOf; exact mismatched_ne_ok) (by simp)

theorem reads_object (name : String) (levels : Nat) {fields : Nat → Fields σ} {step : Nat → Step σ}
    (fieldsRead : ∀ inner, FieldsRead (fields inner) (step inner)) (start : σ)
    (finish : σ → Except ReadError α) :
    Reads (Decoder.object name levels fields start finish)
      (objectOf name levels step start finish) where
  agrees {tree more text} closing spaced := by
    cases tree with
    | object members =>
      obtain ⟨rest, behind, met⟩ := Spaced.read_object spaced
      rw [met, Decoder.object, if_pos rfl]
      refine .nested fun inner _ => ?_
      refine (membersReader_answers (fieldsRead inner) start behind).bind
        fun {final _} _ behind => ?_
      cases finished : finish final with
      | error error => exact .error error
      | ok found => exact closeObject_answers behind fun behind => .ok behind
    | number text =>
      refine .of_same (reads_mismatch (.record name)) closing spaced ?_
      rw [Decoder.object, if_neg (Tree.head_number_ne text (by decide))]
    | bool value =>
      cases value <;> exact .of_same (reads_mismatch (.record name)) closing spaced rfl
    | _ => exact .of_same (reads_mismatch (.record name)) closing spaced rfl
  spelled read behind := by
    obtain ⟨head, others, met, found⟩ := Decoder.exists_of_read read
    unfold Decoder.object at found
    split at found
    · next first =>
      cases levels with
      | zero => cases found
      | succ inner =>
        obtain ⟨final, after, taken, continued⟩ := Reader.run_bind_eq_ok_iff.mp found
        obtain ⟨value, between, finished, closing⟩ := Reader.run_bind_eq_ok_iff.mp continued
        obtain ⟨_, closed, -⟩ := Reader.run_bind_pure_eq_ok_iff.mp closing
        obtain rfl := rest_of_ofExcept finished
        obtain ⟨members, spaced⟩ :=
          members_spelled (fieldsRead inner) true taken (.of_mark closed behind)
        exact ⟨.object members, .of_object (first ▸ met) spaced⟩
    · exact absurd found mismatch_run_ne_ok

theorem reads_objectOrList (name : String) (levels : Nat) {fields : Nat → Fields σ}
    {step : Nat → Step σ} (fieldsRead : ∀ inner, FieldsRead (fields inner) (step inner)) (start : σ)
    (finish : σ → Except ReadError α) {list : Nat → Reader α}
    {items : Nat → List Tree → Except ReadError α}
    (listRead : ∀ inner,
      ReadsItems true (do let found ← list inner; closeList; pure found) (items inner)) :
    Reads (Decoder.objectOrList name levels fields start finish list)
      (listOr levels items (objectOf name levels step start finish)) :=
  reads_listOr listRead (reads_object name levels fieldsRead start finish)

end RenderLink.Json
