import BuildMatrix.Discovery.Basic
import BuildMatrix.Settings.Check

/-!
# Failures of commands

A failure is told on one line, as the chain of an error and its causes. The exit code says what kind of
error it is; a manifest that cannot be loaded in the first place counts as an error of no kind.
-/

namespace BuildMatrix.CommandLine

/-- Why a command fails. -/
inductive Failure
  | settings (e : SettingsError)
  | manifest (e : ManifestError)
  | find (e : FindError)
  | option (e : OptionError)
  /-- Records of apps cannot be collected. -/
  | collect (e : DiskError)
  | disk (e : DiskError)
  | completions (file : Path) (e : DiskError)
  deriving Repr

/-- The exit codes of the program. -/
structure ExitCodes where
  success : Nat := 0
  failure : Nat := 1
  settings : Nat := 2
  manifest : Nat := 3
  options : Nat := 4

/-- The exit codes of the program. -/
def exitCodes : ExitCodes := {}

/-- A text with its cause. -/
def because (text cause : String) : String :=
  text ++ ": " ++ cause

/-- An error of the disk with itself as its cause. -/
def ioChain (e : DiskError) : String :=
  because ("IO error: " ++ e.message) e.message

/-- The chain of an error in a manifest. -/
def manifestChain : ManifestError → String
  | .disk e => ioChain e
  | e => e.message

/-- The chain of an error in settings. -/
def settingsChain : SettingsError → String
  | .config (.disk e) => because (ConfigError.disk e).message e.message
  | e => e.message

/-- The chain of an error in a search for apps. -/
def findChain : FindError → String
  | .manifest e => manifestChain e
  | .walk folder e =>
    because (because (FindError.walk folder e).message (e.walkMessage folder)) e.message
  | e => e.message

namespace Failure

/-- The chain of a failure. -/
def chain : Failure → String
  | settings e => settingsChain e
  | manifest e => manifestChain e
  | find e => findChain e
  | option e => e.message
  | collect e => ioChain e
  | disk e => e.message
  | completions file e => because ("Failed to write completions to " ++ file.text) e.message

/-- The exit code of a failure. -/
def exitCode : Failure → Nat
  | settings (.config _) => exitCodes.settings
  | settings (.option _) | option _ | find (.option _) => exitCodes.options
  | find (.manifest _) | find (.eval _) => exitCodes.manifest
  | manifest _ | find (.configRule ..) | find (.walk ..) | collect _ | disk _
  | completions .. => exitCodes.failure

end Failure

end BuildMatrix.CommandLine
