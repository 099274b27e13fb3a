import BuildMatrix.Path.Normal
import BuildMatrix.Table

/-!
# Settings

The settings of a run: where apps are looked for, for which targets, what decides whether they are
built, and how they are built.
-/

namespace BuildMatrix

/-- The settings of a run. -/
structure Settings where
  /-- The folders that apps are looked for in. -/
  paths : List Path := []
  /-- The target that apps are looked for; `all` stands for every known one. -/
  target : String := "all"
  recursive : Bool := false
  /-- The folders that a recursive search leaves out. -/
  exclude : List Path := []
  workDir : Option Path := none
  buildDir : String := "build"
  buildLog : Option String := none
  configRules : List String := []
  manifestFiles : List Path := []
  /-- The folder that folders in manifests are relative to. -/
  manifestRoot : Path := ⟨"."⟩
  /-- Whether manifests must name existing folders, each once. -/
  checkManifests : Bool := false
  defaultTargets : Option (List String) := none
  enablePreviewTargets : Bool := false
  modifiedComponents : Option (List String) := none
  modifiedFiles : Option (List Path) := none
  deactivatingComponents : Option (List String) := none
  deactivatingPatterns : Option (List String) := none
  /-- A snapshot of manifests to compare with. -/
  manifestSnapshot : Option Path := none
  sdkPath : Option Path := none
  jobCount : Nat := 1
  /-- The number of this job, counted from one. -/
  jobIndex : Nat := 1
  keepGoing : Bool := false
  dryRun : Bool := false
  checkWarnings : Bool := false
  /-- Patterns of warnings that do not count. -/
  ignoredWarnings : List String := []
  /-- The file that records of built apps are added to. -/
  collectFile : Option Path := none
  includeSkipped : Bool := false
  includeDisabled : Bool := false
  deriving DecidableEq, Repr

namespace Settings

/-- The variable of the process that names the SDK. -/
def sdkVariable : String := "IDF_PATH"

/-- The path of the SDK: the one that is set, or else the one in the variables of the process. -/
def resolveSdkPath (s : Settings) (vars : Table String String) : Option Path :=
  match s.sdkPath with
  | some p => some p
  | none => (Table.get? sdkVariable vars).map Path.mk

/-- A path below a folder if it is relative. -/
def rebasePath (base p : Path) : Path :=
  if p.isAbsolute then p else base.join p

/-- The settings with the paths in them put below a folder. What is a template, a changed file or the
file for records is left alone. -/
def rebase (s : Settings) (base : Path) : Settings :=
  { s with
    paths := s.paths.map (rebasePath base)
    exclude := s.exclude.map (rebasePath base)
    manifestFiles := s.manifestFiles.map (rebasePath base)
    manifestRoot := rebasePath base s.manifestRoot
    manifestSnapshot := s.manifestSnapshot.map (rebasePath base)
    sdkPath := s.sdkPath.map (rebasePath base) }

end Settings

end BuildMatrix
