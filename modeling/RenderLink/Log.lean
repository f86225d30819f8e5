/-
**Log events.**

An event has a level, the path of the module that reports it and a message. In a log its text shows
the control characters that could drive a terminal by their codes.
-/

namespace RenderLink.Log

/-- How important an event is, the least important first. -/
inductive Level where
  | trace
  | debug
  | info
  | warn
  | error
  deriving DecidableEq, Repr

/-- The rank of a level: the more important, the smaller. -/
def Level.rank : Level → Nat
  | .error => 1
  | .warn => 2
  | .info => 3
  | .debug => 4
  | .trace => 5

def Level.name : Level → String
  | .error => "ERROR"
  | .warn => "WARN"
  | .info => "INFO"
  | .debug => "DEBUG"
  | .trace => "TRACE"

/-- Something that was reported. -/
structure Event where
  level : Level
  /-- The path of the module that reports it. -/
  target : String
  message : String
  deriving DecidableEq, Repr

/-- An event without its module. -/
def Event.summary (event : Event) : String := event.level.name ++ " " ++ event.message

/-- How a character of a message is written: a control character that could drive a terminal is
shown by its code. -/
def showChar (c : Char) : List Char :=
  let code := c.toNat
  if code = 0x07 ∨ code = 0x08 ∨ code = 0x0C ∨ code = 0x1B ∨ code = 0x7F then
    ['\\', 'x', Nat.digitChar (code / 16), Nat.digitChar (code % 16)]
  else if 0x80 ≤ code ∧ code ≤ 0x9F then
    ['\\', 'u', '\x7b'] ++ Nat.toDigits 16 code ++ ['\x7d']
  else [c]

/-- The text of an event in a log. -/
def Event.text (event : Event) : String :=
  event.level.name ++ " " ++ event.target ++ ": " ++
    String.ofList (event.message.toList.flatMap showChar)

end RenderLink.Log
