/-
**The way from one path to another.**

Paths are compared by their names alone, without a look at the disk. In a normal form a step up
stands only at the front of a relative path: any other one removes the name before it, and the root
has no parent but itself. The way goes up to the longest common beginning and down from there.
-/

import RenderLink.Path.Basic

namespace RenderLink.Path

open Text

/-- The normal form so far, last component first, after one more component. -/
def extendNormal (done : List Component) : Component → List Component
  | .current => done
  | .parent =>
    match done with
    | .name _ :: rest => rest
    | .root :: _ => done
    | _ => .parent :: done
  | component => component :: done

/-- The normal form of components. -/
def normalize (components : List Component) : List Component :=
  (components.foldl extendNormal []).reverse

/-- Names come one by one behind the normal form so far. -/
theorem foldl_extendNormal_names (names : List (List UInt8)) (done : List Component) :
    (names.map Component.name).foldl extendNormal done =
      (names.map Component.name).reverse ++ done := by
  induction names generalizing done with
  | nil => rfl
  | cons name rest ih => simp [extendNormal, ih]

/-- The lists without their longest common beginning. -/
def withoutCommon : List Component → List Component → List Component × List Component
  | a :: first, b :: second =>
    if a = b then withoutCommon first second else (a :: first, b :: second)
  | first, second => (first, second)

/-- The segments of the way from some components to others. -/
def way (origin target : List Component) : List (List Char) :=
  let (ups, downs) := withoutCommon (normalize origin) (normalize target)
  ups.map (fun _ => ['.', '.']) ++ downs.map Component.display

/-- The way from some components to others, with slashes between its segments. -/
def wayText (origin target : List Component) : List Char := joinWith '/' (way origin target)

/-- The way from one path to another. -/
def relative (origin target : Path) : String :=
  String.ofList (wayText origin.components target.components)

/-- A text without the slashes at its end. -/
def trimSlashes (text : List Char) : List Char :=
  (text.reverse.dropWhile fun c => c = '/').reverse

/-- The base of the asset URLs of a file: the base of the server, and the way from the project root
to the directory of the file. -/
def assetBase (base : String) (root file : Path) : String :=
  String.ofList (trimSlashes base.toList ++ '/' :: wayText root.components file.directory)

end RenderLink.Path
