import BuildMatrix.CommandLine.Failure
import BuildMatrix.CommandLine.Invocation
import BuildMatrix.Sdk.Basic
import BuildMatrix.Settings.Load

/-!
# Selecting apps

The settings of a file are overridden by the options of a command. They say which manifests are loaded,
which SDK is asked, and which apps are found.
-/

namespace BuildMatrix.CommandLine

/-- The paths that an option gives, or else other ones. -/
def pathsOr (r : Reading) (name : String) (others : List Path) : List Path :=
  ((r.values? name).map (List.map Path.mk)).getD others

/-- The path that an option gives, or else another one. -/
def pathOr (r : Reading) (name : String) (other : Option Path) : Option Path :=
  ((r.value? name).map Path.mk).orElse fun _ => other

/-- The settings with what the options of a selection say. The variable for the SDK counts as an
option. -/
def selected (r : Reading) (vars : Table String String) (s : Settings) : Settings :=
  let all := r.has "include-all-apps"
  let given : Settings := { s with
    paths := pathsOr r "paths" s.paths
    target := (r.value? "target").getD s.target
    recursive := s.recursive || r.has "recursive"
    exclude := pathsOr r "exclude" s.exclude
    workDir := pathOr r "work-dir" s.workDir
    buildDir := (r.value? "build-dir").getD s.buildDir
    buildLog := (r.value? "build-log").orElse fun _ => s.buildLog
    configRules := (r.values? "config-rules").getD s.configRules
    manifestFiles := pathsOr r "manifest-files" s.manifestFiles
    manifestRoot := (pathOr r "manifest-rootpath" none).getD s.manifestRoot
    checkManifests := s.checkManifests || r.has "check-manifest-rules"
    defaultTargets := (r.values? "default-build-targets").orElse fun _ => s.defaultTargets
    enablePreviewTargets := s.enablePreviewTargets || r.has "enable-preview-targets"
    modifiedComponents := (r.values? "modified-components").orElse fun _ => s.modifiedComponents
    modifiedFiles := ((r.values? "modified-files").map (List.map Path.mk)).orElse fun _ =>
      s.modifiedFiles
    deactivatingComponents :=
      (r.values? "deactivate-dependency-driven-build-by-components").orElse fun _ =>
        s.deactivatingComponents
    deactivatingPatterns :=
      (r.values? "deactivate-dependency-driven-build-by-filepatterns").orElse fun _ =>
        s.deactivatingPatterns
    manifestSnapshot := pathOr r "compare-manifest-sha-filepath" s.manifestSnapshot
    includeSkipped := s.includeSkipped || r.has "include-skipped-apps" || all
    includeDisabled := s.includeDisabled || r.has "include-disabled-apps" || all
    sdkPath := pathOr r "idf-path"
      (((Table.get? Settings.sdkVariable vars).map Path.mk).orElse fun _ => s.sdkPath) }
  if given.paths.isEmpty then { given with paths := [⟨"."⟩] } else given

/-- The settings of the file that is named, or of the one for the current folder. -/
def fileSettings (d : Disk) (r : Reading) : Except SettingsError Settings :=
  match r.value? "config-file" with
  | some file => Settings.load d ⟨file⟩
  | none => (Settings.loadFor d d.cwdPath).map Prod.fst

/-- The environment of rules: that of the SDK, or the one that is built in. -/
def environmentOf (d : Disk) (s : Settings) (vars : Table String String) : Environment :=
  let builtin := Environment.ofTargets Targets.builtin
  let env := match s.resolveSdkPath vars with
    | some root => (Sdk.loadEnvironment d root).toOption.getD builtin
    | none => builtin
  { env with vars }

/-- The settings of a command and the apps that they select. -/
def discover (d : Disk) (vars : Table String String) (r : Reading) :
    Except Failure (Settings × List App) := do
  let s ← (fileSettings d r).mapError Failure.settings
  let s := selected r vars s
  s.check.mapError Failure.settings
  let m ← (Manifest.load d s.manifestFiles s.manifestRoot s.checkManifests).mapError
    Failure.manifest
  let apps ← (Discovery.findApps d s m (environmentOf d s vars)).mapError Failure.find
  return (s, apps)

end BuildMatrix.CommandLine
