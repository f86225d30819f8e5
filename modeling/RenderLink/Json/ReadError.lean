/-
**Why a text cannot be read.**

A text can end too early, break the grammar, or hold a value of another shape than the one asked
for. The first two are reported by a mark each, the third by a message that names what was found
and what was expected.
-/

import RenderLink.Json.Printer
import RenderLink.Text.Quoted

namespace RenderLink.Json

/-- The kind of value that stands where another kind was expected. -/
inductive Found where
  | null
  | boolean (value : Bool)
  | number (value : Number)
  | string (value : String)
  | list
  | object
  deriving DecidableEq, Repr

/-- The kind of value that was expected. -/
inductive Expected where
  | boolean
  | string
  | list
  | pair
  /-- A record, by its name. -/
  | record (name : String)
  /-- The list of a record's fields, by the record's name and the number of fields. -/
  | fields (name : String) (count : Nat)
  deriving DecidableEq, Repr

/-- Why a text cannot be read. -/
inductive ReadError where
  /-- The text ends before its value does. -/
  | endOfText
  /-- The text breaks the grammar or exceeds a limit of the reader. -/
  | notJson
  | wrongType (found : Found) (expected : Expected)
  | wrongLength (length : Nat) (expected : Expected)
  | missingField (name : String)
  | duplicateField (name : String)
  /-- The value has none of the shapes of a choice, by the choice's name. -/
  | noVariant (name : String)
  deriving DecidableEq, Repr

/-- How a message describes what was found. -/
def Found.describe : Found → String
  | .null => "null"
  | .boolean true => "boolean `true`"
  | .boolean false => "boolean `false`"
  | .number (.double value) =>
    "floating point `" ++ String.ofList (Number.render (.double value)) ++ "`"
  | .number value => "integer `" ++ String.ofList value.render ++ "`"
  | .string value => "string " ++ Text.quote value
  | .list => "sequence"
  | .object => "map"

/-- How a message describes what was expected. -/
def Expected.describe : Expected → String
  | .boolean => "a boolean"
  | .string => "a string"
  | .list => "a sequence"
  | .pair => "a tuple of size 2"
  | .record name => "struct " ++ name
  | .fields name count => "struct " ++ name ++ " with " ++ toString count ++ " elements"

def ReadError.message : ReadError → String
  | .endOfText => "<eof>"
  | .notJson => "<syntax>"
  | .wrongType found expected =>
    "invalid type: " ++ found.describe ++ ", expected " ++ expected.describe
  | .wrongLength length expected =>
    "invalid length " ++ toString length ++ ", expected " ++ expected.describe
  | .missingField name => "missing field `" ++ name ++ "`"
  | .duplicateField name => "duplicate field `" ++ name ++ "`"
  | .noVariant name => "data did not match any variant of untagged enum " ++ name

end RenderLink.Json
