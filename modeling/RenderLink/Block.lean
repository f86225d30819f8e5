/-
**The template block of a component file.**
-/

import RenderLink.Json.Decode

namespace RenderLink

open Json

/-- What is known of a template block besides its text. -/
structure TemplateBlock where
  /-- Whether the block carries the `functional` attribute. -/
  functional : Bool := false
  deriving DecidableEq, Repr

namespace TemplateBlock

instance : Inhabited TemplateBlock := ⟨{}⟩

def toJson (block : TemplateBlock) : Json := .object [("functional", .bool block.functional)]

/-- The fields of a block: the attribute, if it has been read. -/
def fields : Fields (Option Bool)
  | functional, "functional" => Decoder.field "functional" functional Decoder.boolean some
  | functional, _ => Decoder.unknownField functional

def decoder (levels : Nat) : Decoder TemplateBlock :=
  Decoder.objectOrList "SfcBlock" levels (fun _ => fields) none
    (fun functional => .ok ⟨functional.getD false⟩)
    (fun _ => do
      let functional ← element? Decoder.boolean true
      pure ⟨functional.getD false⟩)

end TemplateBlock

end RenderLink
