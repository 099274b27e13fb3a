import BuildMatrix.Table
import BuildMatrix.Value

/-!
# The environment of an evaluation

Conditions are evaluated for one target and one config name in an environment: the known targets,
the targets that are built by default, the capability constants of each target, the version of
the SDK and the variables of the process.
-/

namespace BuildMatrix

/-- The known targets. -/
structure Targets where
  supported : List String
  preview : List String
  deriving DecidableEq, Repr

namespace Targets

/-- The targets known without an SDK. -/
def builtin : Targets where
  supported :=
    ["esp32", "esp32s2", "esp32c3", "esp32s3", "esp32c2", "esp32c6", "esp32h2", "esp32p4"]
  preview := ["linux", "esp32c5", "esp32c61"]

/-- All known targets: the supported ones, then the preview ones. -/
def all (t : Targets) : List String :=
  t.supported ++ t.preview

end Targets

/-- The constants of each target. -/
abbrev Capabilities :=
  Table String (Table String Value)

namespace Capabilities

/-- The value of a constant. -/
def find? (c : Capabilities) (target name : String) : Option Value :=
  (c.get? target).bind (Table.get? name)

/-- Gives a constant of a target a value. -/
def define (c : Capabilities) (target name : String) (v : Value) : Capabilities :=
  c.insert target (((c.get? target).getD []).insert name v)

/-- The number of constants of a target. -/
def count (c : Capabilities) (target : String) : Nat :=
  ((c.get? target).getD []).length

end Capabilities

/-- What rules are evaluated in. -/
structure Environment where
  targets : Targets
  /-- The targets built by default at first. -/
  initialDefaults : List String
  /-- The targets built by default now. -/
  defaults : List String
  capabilities : Capabilities := []
  version : Option Version := none
  vars : Table String String := []
  deriving Repr

namespace Environment

/-- The environment of some targets: the supported ones are built by default. -/
def ofTargets (targets : Targets) : Environment where
  targets := targets
  initialDefaults := targets.supported
  defaults := targets.supported

/-- Replaces the targets built by default. -/
def overrideDefaults (env : Environment) (targets : List String) : Environment :=
  { env with defaults := targets }

/-- Goes back to the targets that were built by default at first. -/
def resetDefaults (env : Environment) : Environment :=
  { env with defaults := env.initialDefaults }

/-- All known targets. -/
def allTargets (env : Environment) : List String :=
  env.targets.all

/-- Whether a target is known. -/
def isKnown (env : Environment) (target : String) : Bool :=
  env.allTargets.contains target

/-- Whether a target is built by default. -/
def isDefault (env : Environment) (target : String) : Bool :=
  env.defaults.contains target

/-- The version of the SDK, zero when there is none. -/
def sdkVersion (env : Environment) : Version :=
  env.version.getD ⟨0, 0, 0, [], []⟩

end Environment

/-- A target and a config name in an environment. -/
structure Context where
  env : Environment
  target : String
  configName : String
  deriving Repr

namespace Context

/-- The attributes that always have the same meaning. The numbers of the SDK's version are read
as signed words. -/
def reserved (ctx : Context) : String → Option Value
  | "IDF_TARGET" => some (.str ctx.target)
  | "CONFIG_NAME" => some (.str ctx.configName)
  | "INCLUDE_DEFAULT" => some (.int (if ctx.env.isDefault ctx.target then 1 else 0))
  | "IDF_VERSION" => some (.version ctx.env.sdkVersion)
  | "IDF_VERSION_MAJOR" => some (.int (Text.asSigned ctx.env.sdkVersion.major))
  | "IDF_VERSION_MINOR" => some (.int (Text.asSigned ctx.env.sdkVersion.minor))
  | "IDF_VERSION_PATCH" => some (.int (Text.asSigned ctx.env.sdkVersion.patch))
  | _ => none

/-- The value of an attribute: reserved ones first, then the constants of the target, then the
variables of the process; an unknown attribute is zero. -/
def lookup (ctx : Context) (name : String) : Value :=
  (ctx.reserved name).getD <|
    (ctx.env.capabilities.find? ctx.target name).getD <|
      ((ctx.env.vars.get? name).map Value.str).getD (.int 0)

end Context

end BuildMatrix
