/-
**Images of a template, and the code that lists them.**

An image is `<img src="` with its source and `">`. In the code a source is a dynamic reference, or a
URL under the base if there is one and the source is relative.

* `image?_shorter`: what follows an image is shorter, so the images of a text can be listed.
-/

import RenderLink.Json.Printer
import RenderLink.Text.Utf16
import RenderLink.Text.Word

namespace RenderLink.Bundle

open Json Text

/-- What stands before the source of an image. -/
def imageOpening : List Char := "<img src=\"".toList

/-- What stands behind the source of an image. -/
def imageClosing : List Char := "\">".toList

/-- The source of an image that the text begins with, and the text behind the image. -/
def image? (text : List Char) : Option (List Char × List Char) := do
  let body ← afterWord? imageOpening text
  let rest ← afterWord? imageClosing (body.dropWhile fun c => c ≠ '"')
  return (body.takeWhile fun c => c ≠ '"', rest)

/-- The text behind an image is shorter than the text. -/
theorem image?_shorter {text source rest : List Char} (found : image? text = some (source, rest)) :
    rest.length < text.length := by
  simp only [image?, Option.bind_eq_bind, Option.bind_eq_some_iff, Option.pure_def,
    Option.some.injEq, Prod.mk.injEq] at found
  obtain ⟨body, opened, rest', closed, -, rfl⟩ := found
  have whole := congrArg List.length (afterWord?_eq_some_iff.mp opened)
  have tail := congrArg List.length (afterWord?_eq_some_iff.mp closed)
  have kept : (body.dropWhile fun c => c ≠ '"').length ≤ body.length :=
    (List.dropWhile_sublist _).length_le
  have opening : 0 < imageOpening.length := by decide
  simp only [List.length_append] at whole tail
  omega

/-- The sources of the images of a text, from left to right. -/
def images (text : List Char) : List (List Char) :=
  match text with
  | [] => []
  | c :: rest =>
    match _found : image? (c :: rest) with
    | some (source, behind) => source :: images behind
    | none => images rest
termination_by text.length
decreasing_by
  · exact image?_shorter _found
  · simp

/-- The text of a string from its third UTF-16 unit on, as it is written in a script. Of a pair of
surrogates that the cut divides, the second one stays and is written as an escape. -/
def fromThirdUnit : List Char → List Char
  | [] => []
  | a :: rest =>
    match unitCount a, rest with
    | 1, [] => []
    | 1, b :: tail =>
      match encodeUnits b with
      | [_, low] => '\\' :: 'u' :: Nat.toDigits 16 low ++ tail.flatMap escape
      | _ => tail.flatMap escape
    | _, _ => rest.flatMap escape

/-- The code of an image source: a URL under the base if it is relative and there is a base, and a
dynamic reference otherwise. -/
def imageCode (base : Option String) (source : List Char) : List Char :=
  match base, source.head? with
  | some base, some '.' =>
    '"' :: base.toList.flatMap escape ++ '/' :: fromThirdUnit source ++ ['"']
  | _, _ => "require(".toList ++ renderString source ++ [')']

/-- Texts joined by a comma and a blank. -/
def commaSeparated : List (List Char) → List Char
  | [] => []
  | [item] => item
  | item :: rest => item ++ ',' :: ' ' :: commaSeparated rest

/-- The code that lists image sources. -/
def imagesCode (base : Option String) (sources : List (List Char)) : String :=
  "var render = function () \x7b return [" ++
    String.ofList (commaSeparated (sources.map (imageCode base))) ++
    "] \x7d\nvar staticRenderFns = []"

end RenderLink.Bundle
