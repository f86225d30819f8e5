/-
**Which asset URLs are transformed, and how.**

`transformAssetUrls` is a switch or names, for each tag, the attributes that hold asset URLs;
`transformAssetUrlsOptions` gives the base that relative URLs are put under.

* `AttributeNames.ofJson?_toJson`: attribute names are read back from their written form.
-/

import RenderLink.Json.Decode

namespace RenderLink

open Json

/-! ### Attributes of a tag -/

/-- One attribute name or a list of them. -/
inductive AttributeNames where
  | one (name : String)
  | many (names : List String)
  deriving DecidableEq, Repr

namespace AttributeNames

/-- The attribute names that a value stands for. -/
def ofJson? : Json → Option AttributeNames
  | .string name => some (.one name)
  | .list items => (items.mapM text?).map .many
  | _ => none

def toJson : AttributeNames → Json
  | .one name => .string name
  | .many names => .list (names.map .string)

/-- Attribute names are read back from their written form. -/
theorem ofJson?_toJson (names : AttributeNames) : ofJson? names.toJson = some names := by
  cases names with
  | one name => rfl
  | many names =>
    have texts : (names.map Json.string).mapM text? = some names := by
      induction names with
      | nil => rfl
      | cons name rest ih => simp [text?, ih]
    simp [toJson, ofJson?, texts]

def decoder (levels : Nat) : Decoder AttributeNames := Decoder.choice "OneOrMany" levels ofJson?

end AttributeNames

/-! ### The transformation -/

/-- A switch, or the attributes that hold asset URLs by tag name. -/
inductive AssetUrlTransform where
  | enabled (on : Bool)
  | tags (attributes : Dictionary AttributeNames)

namespace AssetUrlTransform

instance : Inhabited AssetUrlTransform := ⟨.enabled true⟩

/-- The attribute names of a member of an object. -/
def tag? (member : String × Json) : Option (String × AttributeNames) :=
  (AttributeNames.ofJson? member.2).map fun names => (member.1, names)

/-- The transformation that a value stands for. -/
def ofJson? : Json → Option AssetUrlTransform
  | .bool on => some (.enabled on)
  | .object members => (members.mapM tag?).map fun tags => .tags (Dictionary.ofList tags)
  | _ => none

def toJson : AssetUrlTransform → Json
  | .enabled on => .bool on
  | .tags attributes => .object (attributes.entries.map fun entry => (entry.1, entry.2.toJson))

def decoder (levels : Nat) : Decoder AssetUrlTransform :=
  Decoder.choice "AssetUrlTransform" levels ofJson?

end AssetUrlTransform

/-! ### The base of relative URLs -/

/-- What relative asset URLs are put under, if anything. -/
structure AssetUrlOptions where
  base : Option String
  deriving DecidableEq, Repr

namespace AssetUrlOptions

instance : Inhabited AssetUrlOptions := ⟨⟨none⟩⟩

def toJson (options : AssetUrlOptions) : Json :=
  .object (optionalMember "base" (options.base.map .string))

/-- The fields of the options: the base, if it has been read. -/
def fields : Fields (Option (Option String))
  | base, "base" => Decoder.field "base" base (Decoder.optional Decoder.text) some
  | base, _ => Decoder.unknownField base

def decoder (levels : Nat) : Decoder AssetUrlOptions :=
  Decoder.objectOrList "AssetUrlOptions" levels (fun _ => fields) none
    (fun base => .ok ⟨base.join⟩)
    (fun _ => do
      let base ← element? (Decoder.optional Decoder.text) true
      pure ⟨base.join⟩)

end AssetUrlOptions

end RenderLink
