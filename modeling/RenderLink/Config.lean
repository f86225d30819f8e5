/-
**Configuration by environment variables.**

The variables name the project root, the mode, the overrides and the compiler bundle. Of several
faults the first in this order is reported: the root, the overrides, what makes them unusable, the
bundle.
-/

import RenderLink.FileSystem.Disk
import RenderLink.Options.Resolved

namespace RenderLink

/-- What the program knows before it compiles any file. -/
structure Config where
  options : ResolvedOptions
  bundle : Path

/-- Why there is no configuration. -/
inductive ConfigError where
  | noWorkingDirectory (cause : FileError)
  | missingRoot (root : Path) (cause : FileError)
  | unreadableOverrides (cause : Json.ReadError)
  | unusable (cause : OptionsError)
  | missingBundle
  deriving DecidableEq, Repr

def ConfigError.chain : ConfigError → List String
  | .noWorkingDirectory cause => ["Failed to read current directory", cause.message]
  | .missingRoot root cause =>
    ["Project root " ++ root.display ++ " does not exist", cause.message]
  | .unreadableOverrides cause =>
    "TEMPLATE_LINKER_OPTIONS must be a JSON object of compiler options" ::
      (OptionsError.unreadable cause).chain
  | .unusable cause => cause.chain
  | .missingBundle => ["TEMPLATE_LINKER_COMPILER must point at the template compiler bundle"]

namespace Config

abbrev Environment := String → Option String

/-- Whether the variables ask for production. -/
def isProduction (environment : Environment) : Bool :=
  ["1", "true", "yes"].any (fun word => environment "TEMPLATE_LINKER_PRODUCTION" = some word) ||
    environment "NODE_ENV" = some "production"

/-- The overrides that the variables hold. -/
def overrides (environment : Environment) : Except ConfigError Overrides :=
  match environment "TEMPLATE_LINKER_OPTIONS" with
  | none => .ok {}
  | some text => (Overrides.parse text).mapError .unreadableOverrides

/-- The configuration with a root that is settled. -/
def withRoot (environment : Environment) (root : Path) : Except ConfigError Config := do
  let overrides ← overrides environment
  let options : ResolvedOptions :=
    { root, overrides
      isProduction := isProduction environment
      liveServerBase := environment "TEMPLATE_LINKER_LIVE_BASE" }
  options.validate.mapError .unusable
  match environment "TEMPLATE_LINKER_COMPILER" with
  | some bundle => return { options, bundle := Path.ofString bundle }
  | none => .error .missingBundle

/-- The project root that the variables name, or else the working directory. -/
def root {m : Type → Type} [Monad m] (disk : Disk m) (environment : Environment) :
    m (Except ConfigError Path) := do
  match environment "TEMPLATE_LINKER_ROOT" with
  | some root => return .ok (Path.ofString root)
  | none =>
    match ← disk.workingDirectory with
    | .ok here => return .ok here
    | .error cause => return .error (.noWorkingDirectory cause)

/-- The configuration of the variables. -/
def ofEnvironment {m : Type → Type} [Monad m] (disk : Disk m) (environment : Environment) :
    m (Except ConfigError Config) := do
  match ← root disk environment with
  | .error error => return .error error
  | .ok root =>
    match ← disk.canonicalize root with
    | .error cause => return .error (.missingRoot root cause)
    | .ok root => return withRoot environment root

end Config

end RenderLink
