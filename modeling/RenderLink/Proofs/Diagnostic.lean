/-
**What diagnostics tell.**

An element of the tips or errors of an output describes a diagnostic. A string is a message. An
object tells a message and a range if it has each of the three at most once and in a form that can
be used; null and a missing member count as none. Any other element is shown as its own compact
text.

So one member that cannot be used takes the message of an object with it: the text of the object
takes its place, and that is longer than any string inside of it (`Json.length_lt_toText`).

* `describes_iff`: an element describes one diagnostic.
* `ownMessage_kept_iff`: **an object keeps its own message exactly if its range can be used.**
-/

import RenderLink.Diagnostic
import RenderLink.Proofs.Json.Writing

namespace RenderLink

open Json

namespace Diagnostic

/-- A message that can be used: a string, null or missing. -/
inductive IsMessage : List Json → Option String → Prop
  | missing : IsMessage [] none
  | null : IsMessage [.null] none
  | text (message : String) : IsMessage [.string message] (some message)

/-- An offset that can be used: an integer of 64 bits without a sign, null or missing. -/
inductive IsOffset : List Json → Option UInt64 → Prop
  | missing : IsOffset [] none
  | null : IsOffset [.null] none
  | natural (offset : UInt64) : IsOffset [.number (.natural offset)] (some offset)

/-- The message and the range of an object can be used, and none of the three keys stands in it
twice. -/
structure IsUsable (members : List (String × Json)) (message : Option String)
    (start stop : Option UInt64) : Prop where
  message : IsMessage (named "msg" members) message
  start : IsOffset (named "start" members) start
  stop : IsOffset (named "end" members) stop

/-- The diagnostic that an element stands for. -/
inductive Describes : Json → Diagnostic → Prop
  | text (message : String) : Describes (.string message) (.plain message)
  | ranged {members : List (String × Json)} {message : Option String} {start stop : UInt64}
      (usable : IsUsable members message (some start) (some stop)) :
      Describes (.object members) (.ranged (message.getD "") start stop)
  | plain {members : List (String × Json)} {message : Option String} {start stop : Option UInt64}
      (usable : IsUsable members message start stop) (noRange : start = none ∨ stop = none) :
      Describes (.object members) (.plain (message.getD ""))
  | other {value : Json} (noText : ∀ message, value ≠ .string message)
      (unusable : ∀ members message start stop, value = .object members →
        ¬ IsUsable members message start stop) :
      Describes value (.plain value.tidy.toText)

/-- The only value of a key counts, and a missing key as null. -/
def only? : List Json → Option Json
  | [] => some .null
  | [value] => some value
  | _ => none

theorem single?_eq (key : String) (members : List (String × Json)) :
    single? key members = only? (named key members) := by
  unfold single? named
  generalize (members.filter fun member => member.1 = key) = found
  match found with
  | [] => rfl
  | [_] => rfl
  | _ :: _ :: _ => rfl

theorem isMessage_iff {values : List Json} {message : Option String} :
    IsMessage values message ↔ (only? values).bind messageOf? = some message := by
  constructor
  · rintro (_ | _ | text) <;> rfl
  · intro read
    match values with
    | [] => cases read; exact .missing
    | [.null] => cases read; exact .null
    | [.string text] => cases read; exact .text text
    | [.bool _] | [.number _] | [.list _] | [.object _] => cases read
    | _ :: _ :: _ => cases read

theorem isOffset_iff {values : List Json} {offset : Option UInt64} :
    IsOffset values offset ↔ (only? values).bind offsetOf? = some offset := by
  constructor
  · rintro (_ | _ | natural) <;> rfl
  · intro read
    match values with
    | [] => cases read; exact .missing
    | [.null] => cases read; exact .null
    | [.number (.natural offset)] => cases read; exact .natural offset
    | [.number (.negative _)] | [.number (.double _)] => cases read
    | [.bool _] | [.string _] | [.list _] | [.object _] => cases read
    | _ :: _ :: _ => cases read

/-- The message and the range of an object can be used when each of the three can be read. -/
theorem isUsable_iff {members : List (String × Json)} {message : Option String}
    {start stop : Option UInt64} :
    IsUsable members message start stop ↔
      (single? "msg" members).bind messageOf? = some message ∧
        (single? "start" members).bind offsetOf? = some start ∧
          (single? "end" members).bind offsetOf? = some stop := by
  rw [single?_eq, single?_eq, single?_eq, ← isMessage_iff, ← isOffset_iff, ← isOffset_iff]
  exact ⟨fun ⟨first, second, third⟩ => ⟨first, second, third⟩,
    fun ⟨first, second, third⟩ => ⟨first, second, third⟩⟩

/-- The diagnostic of an object that can be used. -/
theorem ofMembers?_of_isUsable {members : List (String × Json)} {message : Option String}
    {start stop : Option UInt64} (usable : IsUsable members message start stop) :
    ofMembers? members = some
      (match start, stop with
      | some start, some stop => .ranged (message.getD "") start stop
      | _, _ => .plain (message.getD "")) := by
  obtain ⟨messageRead, startRead, stopRead⟩ := isUsable_iff.mp usable
  obtain ⟨text, textFound, textRead⟩ := Option.bind_eq_some_iff.mp messageRead
  obtain ⟨first, firstFound, firstRead⟩ := Option.bind_eq_some_iff.mp startRead
  obtain ⟨last, lastFound, lastRead⟩ := Option.bind_eq_some_iff.mp stopRead
  simp only [ofMembers?, textFound, textRead, firstFound, firstRead, lastFound, lastRead,
    bind, Option.bind]
  cases start <;> cases stop <;> rfl

/-- There is no diagnostic of an object that cannot be used. -/
theorem ofMembers?_eq_none {members : List (String × Json)}
    (unusable : ∀ message start stop, ¬ IsUsable members message start stop) :
    ofMembers? members = none := by
  refine Option.eq_none_iff_forall_ne_some.mpr fun diagnostic read => ?_
  simp only [ofMembers?, bind, Option.bind_eq_some_iff] at read
  obtain ⟨text, textFound, message, textRead, first, firstFound, start, firstRead, last, lastFound,
    stop, lastRead, -⟩ := read
  refine unusable message start stop (isUsable_iff.mpr ⟨?_, ?_, ?_⟩)
  · rw [textFound, Option.bind_some, textRead]
  · rw [firstFound, Option.bind_some, firstRead]
  · rw [lastFound, Option.bind_some, lastRead]

/-- **An element describes one diagnostic.** -/
theorem describes_iff {value : Json} {diagnostic : Diagnostic} :
    Describes value diagnostic ↔ diagnostic = ofJson value := by
  constructor
  · rintro (message | usable | @⟨members, message, start, stop, usable, missing⟩ |
      ⟨noText, unusable⟩)
    · rfl
    · rw [ofJson, ofMembers?_of_isUsable usable]
      rfl
    · rw [ofJson, ofMembers?_of_isUsable usable]
      rcases missing with rfl | rfl
      · rfl
      · cases start <;> rfl
    · cases value with
      | string message => exact absurd rfl (noText message)
      | object members =>
        rw [ofJson,
          ofMembers?_eq_none fun message start stop => unusable members message start stop rfl]
        rfl
      | _ => rfl
  · rintro rfl
    cases value with
    | string message => exact .text message
    | object members =>
      by_cases usable : ∃ message start stop, IsUsable members message start stop
      · obtain ⟨message, start, stop, usable⟩ := usable
        rw [ofJson, ofMembers?_of_isUsable usable]
        cases start with
        | none => exact .plain usable (.inl rfl)
        | some first =>
          cases stop with
          | none => exact .plain usable (.inr rfl)
          | some last => exact .ranged usable
      · have unusable : ∀ message start stop, ¬ IsUsable members message start stop :=
          fun message start stop found => usable ⟨message, start, stop, found⟩
        rw [ofJson, ofMembers?_eq_none unusable]
        refine .other (fun message same => by cases same) ?_
        intro others message start stop same
        obtain rfl := Json.object.inj same
        exact unusable message start stop
    | _ =>
      exact .other (fun message same => by cases same)
        fun members message start stop same => by cases same

/-! ### The message of an object -/

/-- The start and the end of an object can be used, as far as it has them. -/
def HasRange (members : List (String × Json)) (start stop : Option UInt64) : Prop :=
  IsOffset (named "start" members) start ∧ IsOffset (named "end" members) stop

variable {members : List (String × Json)} {message : String} {start stop : Option UInt64}

/-- An object with a message of its own can be used if its range can. -/
theorem isUsable_of_hasRange (own : named "msg" members = [.string message])
    (range : HasRange members start stop) : IsUsable members (some message) start stop :=
  ⟨own ▸ .text message, range.1, range.2⟩

/-- A message with its range, if that has both ends. -/
def located (message : String) : Option UInt64 → Option UInt64 → Diagnostic
  | some start, some stop => .ranged message start stop
  | _, _ => .plain message

@[simp] theorem message_located (message : String) (start stop : Option UInt64) :
    (located message start stop).message = message := by
  cases start <;> cases stop <;> rfl

/-- An object with a message of its own and a range that can be used tells both. -/
theorem ofJson_of_hasRange (own : named "msg" members = [.string message])
    (range : HasRange members start stop) :
    ofJson (.object members) = located message start stop := by
  rw [ofJson, ofMembers?_of_isUsable (isUsable_of_hasRange own range)]
  cases start <;> cases stop <;> rfl

/-- An object with a range that cannot be used tells its text. -/
theorem ofJson_of_not_hasRange (unusable : ∀ start stop, ¬ HasRange members start stop) :
    ofJson (.object members) = .plain (Json.object members).tidy.toText := by
  rw [ofJson, ofMembers?_eq_none fun message start stop usable =>
    unusable start stop ⟨usable.start, usable.stop⟩]
  rfl

/-- What is read from a text is what its value stands for. -/
theorem decode_eq {levels : Nat} {source : String} {value : Json}
    (parsed : decode (Decoder.value levels) source = .ok value) :
    decode (decoder levels) source = .ok (ofJson value) := by
  obtain ⟨tree, spells, known⟩ := (reads_value levels).exists_tree parsed
  rw [decoder, ((reads_value levels).map ofJson).decode_eq spells, known]
  rfl

/-- **An object keeps its own message exactly if its range can be used.** Let an object have one
member for the message, a string. What is read from a text of the object has that message if the
start and the end are each missing, null or an integer of 64 bits without a sign, with the range if
both are integers. Otherwise its message is the text of the whole object, which is another one. -/
theorem ownMessage_kept_iff {message : String} {members : List (String × Json)}
    (own : named "msg" members = [.string message]) :
    let diagnostic := ofJson (.object members)
    (∀ levels source, decode (Decoder.value levels) source = .ok (.object members) →
        decode (decoder levels) source = .ok diagnostic) ∧
      (diagnostic.message = message ↔ ∃ start stop, HasRange members start stop) ∧
      (∀ start stop, HasRange members (some start) (some stop) →
        diagnostic = .ranged message start stop) ∧
      (∀ start stop, HasRange members start stop → start = none ∨ stop = none →
        diagnostic = .plain message) ∧
      ((∀ start stop, ¬ HasRange members start stop) →
        diagnostic = .plain (Json.object members).tidy.toText) := by
  intro diagnostic
  refine ⟨fun levels source => decode_eq, ⟨fun kept => ?_, ?_⟩, fun start stop range => ?_,
    fun start stop range missing => ?_, ofJson_of_not_hasRange⟩
  · by_contra unusable
    have last : (named "msg" members).getLast? = some (.string message) := by rw [own]; rfl
    have shown : diagnostic = .plain (Json.object members).tidy.toText :=
      ofJson_of_not_hasRange fun start stop range => unusable ⟨start, stop, range⟩
    rw [shown] at kept
    exact absurd (length_lt_toText last) (kept ▸ Nat.lt_irrefl message.length)
  · rintro ⟨start, stop, range⟩
    have told : diagnostic = located message start stop := ofJson_of_hasRange own range
    rw [told, message_located]
  · exact ofJson_of_hasRange own range
  · refine (ofJson_of_hasRange own range).trans ?_
    rcases missing with rfl | rfl
    · rfl
    · cases start <;> rfl

/-- An error with a range, and with a member that is none of its own. -/
def locatedTag : List (String × Json) :=
  [("msg", .string "bad tag"), ("kind", .list [.null]), ("start", .number (.natural 3)),
    ("end", .number (.natural 8))]

theorem ownMessage_of_locatedTag :
    named "msg" locatedTag = [.string "bad tag"] ∧ HasRange locatedTag (some 3) (some 8) ∧
      decode (Decoder.value nestingLimit) (Json.object locatedTag).toText =
        .ok (.object locatedTag) ∧
      decode (decoder nestingLimit) (Json.object locatedTag).toText =
        .ok (.ranged "bad tag" 3 8) := by
  have fits : (Json.object locatedTag).Fits nestingLimit := by
    simp [locatedTag, nestingLimit, Fits, Number.IsInteger]
  have own : named "msg" locatedTag = [.string "bad tag"] := by simp [locatedTag]
  have range : HasRange locatedTag (some 3) (some 8) :=
    ⟨by simpa [locatedTag] using .natural 3, by simpa [locatedTag] using .natural 8⟩
  obtain ⟨read, -, ranged, -⟩ := ownMessage_kept_iff own
  have decoded := read nestingLimit _ (parse_toText fits)
  rw [ranged 3 8 range] at decoded
  exact ⟨own, range, parse_toText fits, decoded⟩

/-- The same error with a negative start. -/
def strayTag : List (String × Json) :=
  [("msg", .string "bad tag"), ("start", .number (.negative 0)), ("end", .number (.natural 8))]

/-- It is reported with its own text for a message. -/
theorem ownMessage_is_lost :
    (Json.object strayTag).toText = "\x7b\"msg\":\"bad tag\",\"start\":-1,\"end\":8\x7d" ∧
      named "msg" strayTag = [.string "bad tag"] ∧
      decode (decoder nestingLimit) (Json.object strayTag).toText =
        .ok (.plain "\x7b\"end\":8,\"msg\":\"bad tag\",\"start\":-1\x7d") ∧
      decode (decoder nestingLimit) (Json.object strayTag).toText ≠ .ok (.plain "bad tag") := by
  have fits : (Json.object strayTag).Fits nestingLimit := by
    simp [strayTag, nestingLimit, Fits, Number.IsInteger]
  have shown : ofJson (.object strayTag) =
      .plain "\x7b\"end\":8,\"msg\":\"bad tag\",\"start\":-1\x7d" := by
    decide +kernel
  have decoded := decode_eq (parse_toText fits)
  rw [shown] at decoded
  refine ⟨by decide +kernel, by simp [strayTag], decoded, fun kept => ?_⟩
  have same := Diagnostic.plain.inj (Except.ok.inj (decoded.symm.trans kept))
  exact absurd same (by decide)

end Diagnostic

end RenderLink
