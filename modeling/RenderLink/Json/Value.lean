/-
**JSON values.**

A value is the tree of a JSON text: the members of an object stand in the order of the text, with
repeated keys. `Json.tidy` is the value as a dictionary sees it, with the members of every object in
key order and the last of repeated keys.

A number is an integer when its text is one and it fits 64 bits; any other number is a double.
-/

import RenderLink.Decimal.Layout
import RenderLink.Dictionary

namespace RenderLink

open Decimal

inductive Json.Number where
  /-- An integer from zero to 2⁶⁴ - 1. -/
  | natural (value : UInt64)
  /-- The integer `-(below + 1)`. -/
  | negative (below : Fin 0x8000000000000000)
  /-- A finite double-precision number. -/
  | double (value : Double)
  deriving DecidableEq, Repr

inductive Json where
  | null
  | bool (value : Bool)
  | number (value : Json.Number)
  | string (value : String)
  | list (items : List Json)
  | object (members : List (String × Json))
  deriving Repr, Inhabited

namespace Json

mutual

/-- The value with the members of every object in key order, the last of repeated keys. -/
def tidy : Json → Json
  | .null => .null
  | .bool value => .bool value
  | .number value => .number value
  | .string value => .string value
  | .list items => .list (tidyItems items)
  | .object members => .object (tidyMembers [] members)
termination_by structural value => value

def tidyItems : List Json → List Json
  | [] => []
  | item :: rest => item.tidy :: tidyItems rest
termination_by structural items => items

/-- Members put one after another into a list in key order. -/
def tidyMembers (done : List (String × Json)) : List (String × Json) → List (String × Json)
  | [] => done
  | (key, value) :: rest => tidyMembers (insertSorted key value.tidy done) rest
termination_by structural members => members

end

/-- The dictionary of an object's members. -/
def dictionary (members : List (String × Json)) : Dictionary Json :=
  Dictionary.ofList (members.map fun member => (member.1, member.2.tidy))

def isNull : Json → Bool
  | .null => true
  | _ => false

def text? : Json → Option String
  | .string text => some text
  | _ => none

/-- Null for a missing value. -/
def orNull (value : Option Json) : Json := value.getD .null

/-- A member of an object, if there is a value for it. -/
def optionalMember (key : String) (value : Option Json) : List (String × Json) :=
  (value.map fun found => (key, found)).toList

/-- The last value of a key among an object's members. -/
def lastMember? (key : String) (members : List (String × Json)) : Option Json :=
  members.reverse.lookup key

end Json

end RenderLink
