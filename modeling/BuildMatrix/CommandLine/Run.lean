import BuildMatrix.Build.Sdk
import BuildMatrix.CommandLine.Report
import BuildMatrix.CommandLine.Selection

/-!
# The program

The program reads its arguments and performs a command on the disk. What it prints and its exit code are
its report.
-/

namespace BuildMatrix.CommandLine

/-- The name of the program. -/
def programName : String := "firmbuild"

/-- The version of the program. -/
def programVersion : String := "0.1.0"

/-- What commands are performed with. -/
structure Setting where
  vars : Table String String
  launch : Build.Launcher
  isColoured : Bool

/-- Finishes a command: a failure is reported. -/
def finish (s : Setting) (d : Disk) (r : Except Failure Report) : Report :=
  match r with
  | .ok report => report
  | .error e => failed s.isColoured d e

/-- A text that is left out if the program is to be quiet. -/
def unlessQuiet (i : Invocation) (text : String) : String :=
  if i.isQuiet then "" else text

/-! ## Finding apps -/

/-- The content of a file of apps. -/
def fileContent (i : Invocation) (apps : List App) : String :=
  if i.options.value? "output-format" = some "json" then recordList apps else recordLines apps

/-- What is printed about apps that were found. -/
def foundOutput (s : Setting) (d : Disk) (i : Invocation) (apps : List App) : String :=
  if i.isJson then recordList apps
  else
    String.join (apps.map (foundLine s.isColoured d)) ++
      unlessQuiet i (infoMessage s.isColoured ("Found " ++ toString apps.length ++ " apps"))

/-- Finds apps and prints them or writes them to a file. -/
def findCommand (s : Setting) (d : Disk) (i : Invocation) : Except Failure Report := do
  let (_, apps) ← discover d s.vars i.options
  match i.options.value? "output" with
  | some file =>
    let written ← (d.writeText ⟨file⟩ (fileContent i apps)).mapError Failure.disk
    let text := "Found " ++ toString apps.length ++ " apps, written to " ++ shownPath s.isColoured file
    return { disk := written, output := unlessQuiet i (successMessage s.isColoured text) }
  | none => return { disk := d, output := foundOutput s d i apps }

/-! ## Building apps -/

/-- The settings with what the options of a build say. -/
def buildSettings (r : Reading) (s : Settings) : Settings :=
  { s with
    jobCount := (r.number? "parallel-count").getD s.jobCount
    jobIndex := (r.number? "parallel-index").getD s.jobIndex
    keepGoing := s.keepGoing || r.has "keep-going"
    dryRun := s.dryRun || r.has "dry-run"
    checkWarnings := s.checkWarnings || r.has "check-warnings"
    ignoredWarnings := (r.values? "ignore-warning-str").getD s.ignoredWarnings
    collectFile := pathOr r "collect-app-info" s.collectFile }

/-- The report of a build run. -/
def runReport (s : Setting) (i : Invocation) (p : Build.Progress) : Report :=
  match p.fault with
  | some e => failed s.isColoured p.disk (.collect e)
  | none =>
    let (output, errors) :=
      if i.isJson then (resultList p.apps, "")
      else if i.isQuiet then ("", "")
      else summary s.isColoured p.disk p.apps
    { disk := p.disk, output, errors, exitCode := Build.exitCode p.apps }

/-- Finds apps and builds them. -/
def buildCommand (s : Setting) (d : Disk) (i : Invocation) : Except Failure Report := do
  let (found, apps) ← discover d s.vars i.options
  let settings := buildSettings i.options found
  settings.check.mapError Failure.settings
  let interpreter := (i.options.value? "python").getD "python"
  let options ← (Build.Options.ofSettings settings s.vars).mapError Failure.option
  let builder := Build.sdkBuilder s.launch interpreter s.vars
  return runReport s i (Build.run builder options d apps)

/-! ## Snapshots and completions -/

/-- Writes a snapshot of manifests. -/
def snapshotCommand (s : Setting) (d : Disk) (i : Invocation) : Except Failure Report := do
  let root := (pathOr i.options "manifest-rootpath" none).getD ⟨"."⟩
  let m ← (Manifest.load d (pathsOr i.options "manifest-files" []) root
    (i.options.has "check-manifest-rules")).mapError Failure.manifest
  let file := (pathOr i.options "output" none).getD .empty
  let written ← (m.writeSnapshot d file).mapError Failure.manifest
  let text := "Wrote " ++ toString m.rules.length ++ " folder rules to " ++
    shownPath s.isColoured file.text
  return { disk := written, output := unlessQuiet i (successMessage s.isColoured text) }

/-- A script that completes the commands of the program in a shell. -/
def completionScript (shell : String) : String :=
  let words := Text.joinWith " " topLevel.commands
  match shell with
  | "bash" => "complete -W '" ++ words ++ "' " ++ programName ++ "\n"
  | "zsh" => "#compdef " ++ programName ++ "\ncompadd " ++ words ++ "\n"
  | "fish" => "complete -c " ++ programName ++ " -f -a '" ++ words ++ "'\n"
  | _ => "# " ++ programName ++ ": " ++ words ++ "\n"

/-- Prints a completion script or writes it to a file. -/
def completionsCommand (s : Setting) (d : Disk) (i : Invocation) : Except Failure Report :=
  let shell := i.options.words.headD ""
  match i.options.value? "output" with
  | some file =>
    match d.writeText ⟨file⟩ (completionScript shell) with
    | .error e => .error (.completions ⟨file⟩ e)
    | .ok written =>
      let text := shell ++ " completions for " ++ programName ++ " written to " ++
        shownPath s.isColoured file
      .ok { disk := written, output := unlessQuiet i (successMessage s.isColoured text) }
  | none => .ok { disk := d, output := completionScript shell }

/-! ## The whole program -/

/-- Performs a command in the current folder. -/
def performHere (s : Setting) (d : Disk) (i : Invocation) : Except Failure Report :=
  match i.command with
  | .find => findCommand s d i
  | .build => buildCommand s d i
  | .dumpManifestSha => snapshotCommand s d i
  | .completions => completionsCommand s d i

/-- Creates the file for logs, if that is possible. -/
def openLog (d : Disk) (file : Path) : Disk :=
  let folder := match file.parent? with
    | some p => if p.text.isEmpty then ⟨"."⟩ else p
    | none => ⟨"."⟩
  match d.createFolders folder with
  | .error _ => d
  | .ok d =>
    let name := (file.fileName?).getD (programName ++ ".log")
    (d.appendText (folder.child name) "").toOption.getD d

/-- Performs a command. -/
def perform (s : Setting) (d : Disk) (i : Invocation) : Report :=
  let d := (i.logFile.map (openLog d)).getD d
  match i.folder with
  | none => finish s d (performHere s d i)
  | some folder =>
    match d.enter folder with
    | .error e => failed s.isColoured d (.disk e)
    | .ok inside => finish s inside (performHere s inside i)

/-- The exit code for arguments that cannot be read. -/
def usageCode : Nat := 2

/-- How the program is used. -/
def usageText : String :=
  "Usage: " ++ programName ++ " [OPTIONS] <COMMAND>\nCommands: " ++
    Text.joinWith ", " topLevel.commands ++ "\n"

/-- The line that tells the version. -/
def versionLine (command : Option CommandName) : String :=
  let name := match command with
    | some c => programName ++ "-" ++ c.word
    | none => programName
  name ++ " " ++ programVersion ++ "\n"

/-- The variable that switches styles on. -/
def colourVariable : String := "CLICOLOR_FORCE"

/-- Whether variables switch styles on. -/
def isColoured (vars : Table String String) : Bool :=
  (Table.get? colourVariable vars).any (· ≠ "0")

/-- Runs the program. -/
def run (launch : Build.Launcher) (vars : Table String String) (d : Disk) (args : List String) :
    Report :=
  match wishOf vars args with
  | .ok (.perform i) => perform ⟨vars, launch, isColoured vars⟩ d i
  | .ok (.tellVersion command) => { disk := d, output := versionLine command }
  | .ok .tellHelp => { disk := d, output := usageText }
  | .error _ => { disk := d, errors := "error: " ++ usageText, exitCode := usageCode }

end BuildMatrix.CommandLine
