/-
**The program.**

Runs the command line on the real disk, the arguments and the environment.
-/

import RenderLink.CommandLine

namespace RenderLink

/-- The reason of a failed operation. -/
def FileError.ofIO (error : IO.Error) : FileError :=
  match error with
  | .noFileOrDirectory .. => .notFound
  | .inappropriateType .. => .notDirectory
  | error => .other (toString error)

/-- The result of an operation that may fail. -/
def attempt {α : Type} (operation : IO α) : IO (Except FileError α) := do
  try return .ok (← operation)
  catch error => return .error (.ofIO error)

def realDisk : Disk IO where
  workingDirectory := attempt do return Path.ofString (← IO.currentDir).toString
  canonicalize path := attempt do return Path.ofString (← IO.FS.realPath path.display).toString
  readText path := attempt (IO.FS.readFile path.display)
  writeText path text := attempt (IO.FS.writeFile path.display text)

/-- The environment variables that the program looks at. -/
def variableNames : List String :=
  ["TEMPLATE_LINKER_ROOT", "TEMPLATE_LINKER_PRODUCTION", "TEMPLATE_LINKER_OPTIONS",
    "TEMPLATE_LINKER_LIVE_BASE", "TEMPLATE_LINKER_COMPILER", "NODE_ENV", "RUST_LOG"]

end RenderLink

open RenderLink in
def main (arguments : List String) : IO UInt32 := do
  let values ← variableNames.mapM fun name => return (name, ← IO.getEnv name)
  let environment : Config.Environment := fun name => (values.lookup name).join
  let outcome ← CommandLine.run realDisk environment arguments
  for line in outcome.lines environment do
    IO.eprintln line
  return outcome.exitCode.toUInt32
