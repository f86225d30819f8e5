/-
**What is wrong with options.**

Options can be unreadable as text or unusable as they are.
-/

import RenderLink.Json.ReadError

namespace RenderLink

open Json

/-- Why options cannot be used. -/
inductive InvalidOptions where
  | emptyRoot
  /-- A mark around interpolations is empty. -/
  | emptyDelimiter (first second : String)
  | other (reason : String)
  deriving DecidableEq, Repr

def InvalidOptions.message : InvalidOptions → String
  | .emptyRoot => "Project root cannot be empty"
  | .emptyDelimiter first second =>
    "Delimiters cannot be empty: (" ++ Text.quote first ++ ", " ++ Text.quote second ++ ")"
  | .other reason => reason

/-- What is wrong with options. -/
inductive OptionsError where
  | unreadable (cause : ReadError)
  | invalid (reason : InvalidOptions)
  deriving DecidableEq, Repr

namespace OptionsError

def message : OptionsError → String
  | .unreadable cause => "Serialization error: " ++ cause.message
  | .invalid reason => "Invalid options: " ++ reason.message

def chain (error : OptionsError) : List String :=
  match error with
  | .unreadable cause => [error.message, cause.message]
  | .invalid _ => [error.message]

end OptionsError

end RenderLink
