/-
**Options of the template parser and code generator.**

Five options are known, and any other is passed on as it stands. Null is the same as a missing
option, except for `outputSourceRange`, which is a truth value.
-/

import RenderLink.Options.AssetUrls

namespace RenderLink

open Json

/-- Options of the template parser and code generator. -/
structure CompilerOptions where
  /-- Whether errors carry source ranges, which code frames need. -/
  outputSourceRange : Bool := false
  whitespace : Option String := none
  preserveWhitespace : Option Bool := none
  /-- The marks around an interpolation. -/
  delimiters : Option (String × String) := none
  comments : Option Bool := none
  extra : Dictionary Json := ∅

namespace CompilerOptions

instance : Inhabited CompilerOptions := ⟨{}⟩

/-- The members read so far; those without a field of their own stand in reverse order. -/
structure Draft where
  outputSourceRange : Option Bool := none
  whitespace : Option (Option String) := none
  preserveWhitespace : Option (Option Bool) := none
  delimiters : Option (Option (String × String)) := none
  comments : Option (Option Bool) := none
  extra : List (String × Json) := []

def fields (levels : Nat) : Fields Draft
  | draft, "outputSourceRange" =>
    Decoder.field "outputSourceRange" draft.outputSourceRange Decoder.boolean
      fun found => { draft with outputSourceRange := some found }
  | draft, "whitespace" =>
    Decoder.field "whitespace" draft.whitespace (Decoder.optional Decoder.text)
      fun found => { draft with whitespace := some found }
  | draft, "preserveWhitespace" =>
    Decoder.field "preserveWhitespace" draft.preserveWhitespace (Decoder.optional Decoder.boolean)
      fun found => { draft with preserveWhitespace := some found }
  | draft, "delimiters" =>
    Decoder.field "delimiters" draft.delimiters (Decoder.optional (Decoder.pairOfTexts levels))
      fun found => { draft with delimiters := some found }
  | draft, "comments" =>
    Decoder.field "comments" draft.comments (Decoder.optional Decoder.boolean)
      fun found => { draft with comments := some found }
  | draft, key =>
    .ok ((Decoder.value levels).map fun found =>
      { draft with extra := (key, found) :: draft.extra })

def Draft.finish (draft : Draft) : CompilerOptions :=
  { outputSourceRange := draft.outputSourceRange.getD false
    whitespace := draft.whitespace.join
    preserveWhitespace := draft.preserveWhitespace.join
    delimiters := draft.delimiters.join
    comments := draft.comments.join
    extra := Json.dictionary draft.extra.reverse }

def decoder (levels : Nat) : Decoder CompilerOptions :=
  Decoder.object "CompilerOptions" levels fields {} fun draft => .ok draft.finish

def toJson (options : CompilerOptions) : Json :=
  .object <|
    ("outputSourceRange", .bool options.outputSourceRange) ::
    optionalMember "whitespace" (options.whitespace.map .string) ++
    optionalMember "preserveWhitespace" (options.preserveWhitespace.map .bool) ++
    optionalMember "delimiters"
      (options.delimiters.map fun pair => .list [.string pair.1, .string pair.2]) ++
    optionalMember "comments" (options.comments.map .bool) ++
    options.extra.entries

end CompilerOptions

end RenderLink
