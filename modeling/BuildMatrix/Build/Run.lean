import BuildMatrix.Build.Basic
import BuildMatrix.Build.Slice
import BuildMatrix.Build.Warning
import BuildMatrix.Gate
import BuildMatrix.Settings.Basic
import BuildMatrix.Text.Sorted

/-!
# Build runs

A run visits the apps of its slice in order. An app that is skipped or disabled is only reported; any
other one is given to the builder once and ends as built, failed or skipped. The run stops after the first
failure unless it is told to keep going. It leaves behind the apps that it visited and the list of steps
it took.
-/

namespace BuildMatrix.Build

/-- What a run goes by. -/
structure Options where
  jobCount : Nat := 1
  jobIndex : Nat := 1
  keepGoing : Bool := false
  checkWarnings : Bool := false
  /-- The patterns of warnings that do not count. -/
  ignored : List Regular := []
  /-- The file that records of apps are added to. -/
  collectFile : Option Path := none
  request : Request := {}

/-- The options of a run with some settings. -/
def Options.ofSettings (s : Settings) (vars : Table String String) :
    Except OptionError Options := do
  let ignored ← (ignoredPatterns s.ignoredWarnings).mapError OptionError.warningPattern
  return {
    jobCount := s.jobCount
    jobIndex := s.jobIndex
    keepGoing := s.keepGoing
    checkWarnings := s.checkWarnings
    ignored
    collectFile := s.collectFile
    request := ⟨s.resolveSdkPath vars, s.dryRun⟩ }

/-! ## Steps -/

/-- What is reported about a run. -/
inductive Event
  | started (index : Nat) (app : String)
  | finished (index : Nat) (app : String) (status : BuildStatus) (comment : Option String)
  | skipped (index : Nat) (app reason : String)
  | warning (folder : Path) (line : String)
  | allCompleted (total succeeded failed skipped : Nat)
  deriving DecidableEq, Repr

/-- A step of a run. -/
inductive Step
  | reported (e : Event)
  /-- The builder is asked to build an app. -/
  | asked (a : App)
  deriving DecidableEq, Repr

/-- What a visit to an app leaves behind. -/
structure Visit where
  disk : Disk
  app : App
  steps : List Step

/-- What a run leaves behind. -/
structure Progress where
  disk : Disk
  apps : List App := []
  steps : List Step := []
  /-- Why the run had to be given up. -/
  fault : Option DiskError := none

/-! ## One app -/

/-- The comment on an app whose build has failed. -/
def failureComment (a : App) : String :=
  match a.buildLogPath with
  | some file => "build failed, see " ++ file.text
  | none => "build failed"

/-- An app after its build, and the warnings in its log. -/
def conclude (o : Options) (a : App) : Except BuildError Outcome → App × List String
  | .error e => ({ a with status := .failed, buildComment := some e.message }, [])
  | .ok outcome =>
    if o.request.isDryRun then ({ a with status := .skipped, buildComment := some "dry run" }, [])
    else if !outcome.isSuccess then
      ({ a with status := .failed, buildComment := some (failureComment a) }, [])
    else
      let found := warnings o.ignored outcome.logLines
      if o.checkWarnings && !found.isEmpty then
        let comment := "build succeeded with " ++ toString found.length ++ " warning(s)"
        ({ a with status := .failed, buildComment := some comment }, found)
      else ({ a with status := .success }, found)

/-- Whether an app is given to the builder. -/
def isAsked (a : App) : Bool :=
  a.status ≠ .skipped && a.status ≠ .disabled

/-- Visits an app. -/
def visit (b : Builder) (o : Options) (d : Disk) (index : Nat) (a : App) : Visit :=
  if isAsked a then
    let (outcome, d) := (b.build a o.request).run d
    let (built, found) := conclude o a outcome
    { disk := d
      app := built
      steps := [.reported (.started index a.describe), .asked a] ++
        found.map (fun line => .reported (.warning a.folder line)) ++
        [.reported (.finished index a.describe built.status built.buildComment)] }
  else
    { disk := d
      app := a
      steps := [.reported (.skipped index a.describe (a.buildComment.getD ""))] }

/-- Creates the folder that a file is to be put in. -/
def createFolderOf (d : Disk) (file : Path) : Except DiskError Disk :=
  match file.parent? with
  | some folder => if folder.text.isEmpty then .ok d else d.createFolders folder
  | none => .ok d

/-- Adds the record of an app to the file that records are collected in. -/
def collect (o : Options) (d : Disk) (a : App) : Disk × Option DiskError :=
  match o.collectFile with
  | none => (d, none)
  | some template =>
    let file := App.collectPath template o.jobIndex
    match createFolderOf d file with
    | .error e => (d, some e)
    | .ok d =>
      match d.appendText file (a.record.compact ++ "\n") with
      | .error e => (d, some e)
      | .ok d => (d, none)

/-! ## Runs -/

/-- Visits apps, the first of which gets the index that is given. -/
def visitAll (b : Builder) (o : Options) : Nat → Disk → List App → Progress
  | _, d, [] => { disk := d }
  | index, d, a :: rest =>
    let here := visit b o d index { a with index := some index }
    match collect o here.disk here.app with
    | (d, some e) => { disk := d, steps := here.steps, fault := some e }
    | (d, none) =>
      if here.app.status = .failed && !o.keepGoing then
        { disk := d, apps := [here.app], steps := here.steps }
      else
        let others := visitAll b o (index + 1) d rest
        { others with apps := here.app :: others.apps, steps := here.steps ++ others.steps }

/-- The number of apps with a status. -/
def countOf (apps : List App) (status : BuildStatus) : Nat :=
  apps.countP (·.status = status)

/-- What is reported at the end of a run. -/
def total (apps : List App) : Event :=
  .allCompleted apps.length (countOf apps .success) (countOf apps .failed)
    (countOf apps .skipped + countOf apps .disabled)

/-- The slice of a run among some apps. -/
def sliceOf (o : Options) (apps : List App) : Slice :=
  Slice.ofJob apps.length.toUInt64 o.jobCount.toUInt64 o.jobIndex.toUInt64

/-- Builds the slice of the apps that the options give. -/
def run (b : Builder) (o : Options) (d : Disk) (apps : List App) : Progress :=
  let slice := sliceOf o apps
  let done := visitAll b o slice.start.toNat d (slice.select (App.sorted apps))
  if done.fault.isSome then done
  else { done with steps := done.steps ++ [.reported (total done.apps)] }

/-- The apps that the builder was asked for. -/
def askedApps (steps : List Step) : List App :=
  steps.filterMap fun
    | .asked a => some a
    | _ => none

/-- What was reported. -/
def events (steps : List Step) : List Event :=
  steps.filterMap fun
    | .reported e => some e
    | _ => none

/-! ## Summaries -/

/-- The apps of a run by the label of their status, in the order of labels. -/
def groups (apps : List App) : List (String × List App) :=
  (Text.sortUnique (apps.map (·.status.label))).map fun label =>
    (label, apps.filter (·.status.label = label))

/-- Whether an app of a run has failed. -/
def hasFailures (apps : List App) : Bool :=
  0 < countOf apps .failed

/-- The exit code of a run. -/
def exitCode (apps : List App) : Nat :=
  if hasFailures apps then 1 else 0

end BuildMatrix.Build
