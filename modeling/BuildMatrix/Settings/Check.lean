import BuildMatrix.Disk.Basic
import BuildMatrix.Gate
import BuildMatrix.Regular.Parser
import BuildMatrix.Settings.Basic

/-!
# Checking settings

Jobs are counted from one, what deactivates the gate needs the changes it is compared with, patterns of
warnings must be well formed, and config rules have at most one equals sign. The first fault found is
reported.
-/

namespace BuildMatrix

/-- Why a configuration is refused. -/
inductive ConfigError
  | notFound (file : Path)
  | noJobs
  | jobOutOfRange (count : Nat)
  | warningPattern (pattern : String)
  | configRule (rule : String)
  | yaml
  | toml
  | disk (e : DiskError)
  deriving DecidableEq, Repr

/-- The message for a setting whose value is refused. -/
def invalidValue (setting reason : String) : String :=
  "Invalid configuration: " ++ setting ++ " - " ++ reason

/-- The message of an error; for a file that cannot be parsed, and for a pattern, the reason is left
out. -/
def ConfigError.message : ConfigError → String
  | notFound file => "Configuration file not found at " ++ file.text
  | noJobs => invalidValue "parallel_count" "must be at least 1"
  | jobOutOfRange count =>
    invalidValue "parallel_index" ("must be between 1 and " ++ toString count)
  | warningPattern pattern => invalidValue "ignore_warning_strs"
      ("invalid regex " ++ Text.quoted pattern ++ ": regex parse error:")
  | configRule rule =>
    invalidValue "config_rules" ("rule " ++ Text.quoted rule ++ " must look like FILE[=NAME]")
  | yaml => "YAML parsing error"
  | toml => "TOML parsing error"
  | disk e => "IO error reading config: " ++ e.message

/-- Why settings cannot be used. -/
inductive SettingsError
  | config (e : ConfigError)
  | option (e : OptionError)
  deriving DecidableEq, Repr

/-- The message of an error. -/
def SettingsError.message : SettingsError → String
  | config e => e.message
  | option e => e.message

namespace Settings

/-- Checks the number of jobs and of this job. -/
def checkJobs (s : Settings) : Except ConfigError Unit :=
  if s.jobCount = 0 then .error .noJobs
  else if s.jobIndex = 0 || s.jobCount < s.jobIndex then .error (.jobOutOfRange s.jobCount)
  else .ok ()

/-- Checks that what deactivates the gate comes with changes. -/
def checkGate (s : Settings) : Except OptionError Unit :=
  if s.deactivatingComponents.isSome && s.modifiedComponents.isNone then .error .componentsMissing
  else if s.deactivatingPatterns.isSome && s.modifiedFiles.isNone then .error .filesMissing
  else .ok ()

/-- Checks patterns of warnings and config rules. -/
def checkPatterns (s : Settings) : Except ConfigError Unit :=
  match s.ignoredWarnings.find? fun p => (Regular.parse? p).isNone with
  | some p => .error (.warningPattern p)
  | none =>
    match s.configRules.find? fun r => 1 < r.toList.count '=' with
    | some r => .error (.configRule r)
    | none => .ok ()

/-- Checks settings. -/
def check (s : Settings) : Except SettingsError Unit := do
  s.checkJobs.mapError SettingsError.config
  s.checkGate.mapError SettingsError.option
  s.checkPatterns.mapError SettingsError.config

end Settings

end BuildMatrix
