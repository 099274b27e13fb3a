import BuildMatrix.App.Basic
import BuildMatrix.Discovery.ConfigRule
import BuildMatrix.Gate
import BuildMatrix.Manifest.Snapshot
import BuildMatrix.Sdk.Config
import BuildMatrix.Search.Walk
import BuildMatrix.Settings.Basic

/-!
# Finding apps

A folder is an app if its build file includes the project file of the SDK. Apps are looked for in
folders or, recursively, at and below them; below an app nobody looks. Each app is paired with the targets and
configurations asked for, and the rule of its folder and the gate say what happens to it.
-/

namespace BuildMatrix

/-- Why apps cannot be found. -/
inductive FindError
  | manifest (e : ManifestError)
  | eval (e : EvalError)
  | option (e : OptionError)
  | configRule (pattern : String) (e : Search.PatternError)
  /-- A folder cannot be walked through. -/
  | walk (folder : Path) (e : DiskError)
  deriving Repr

/-- The message of an error. -/
def FindError.message : FindError → String
  | manifest e => e.message
  | eval e => e.message
  | option e => e.message
  | configRule pattern e => "Invalid config rule " ++ pattern ++ ": " ++ e.message
  | walk folder e => "IO error: " ++ e.walkMessage folder

namespace Discovery

/-! ## Folders of apps -/

/-- A line that includes the project file. -/
def projectInclude : Regular :=
  let blanks := Regular.star (.one .blank)
  let text (s : String) := Regular.exactly (Regular.symbolsOf s)
  .seqOf [
    .look .lineStart .word, blanks, text "include", blanks, text "(", blanks,
    .star (.one (.compl .blank)), text "project.cmake", blanks, text ")"]

/-- Whether a folder is an app. -/
def isApp (d : Disk) (folder : Path) : Bool :=
  match d.readText (folder.child "CMakeLists.txt") with
  | .ok content => projectInclude.search (Regular.symbolsOf content)
  | .error _ => false

/-- Whether a recursive search leaves a folder out. -/
def isExcluded (d : Disk) (s : Settings) (folder : Path) : Bool :=
  s.exclude.any fun p => (d.absolute p).same (d.absolute folder)

/-- The name of the folders that hold components of others. -/
def managedName : String := "managed_components"

mutual

/-- The apps at and below a folder, given its tree. -/
def appsAt (d : Disk) (s : Settings) (folder : Path) : FileTree → List Path
  | .file _ => []
  | .folder children =>
    if isExcluded d s folder then []
    else if folder.fileName? = some managedName then []
    else if isApp d folder then [folder]
    else appsBelow d s folder children

/-- The apps at and below some children of a folder. -/
def appsBelow (d : Disk) (s : Settings) (folder : Path) :
    List (String × FileTree) → List Path
  | [] => []
  | (name, t) :: rest => appsAt d s (folder.child name) t ++ appsBelow d s folder rest

end

/-- The folders of apps that a search in a folder finds. -/
def appFolders (d : Disk) (s : Settings) (folder : Path) : Except FindError (List Path) :=
  if !s.recursive then .ok (if isApp d folder then [folder] else [])
  else
    match d.find folder with
    | .error e => .error (.walk folder e)
    | .ok t => .ok (appsAt d s folder t)

/-! ## Configurations -/

/-- A configuration of an app: its file, if it has one, and its name. -/
abbrev Config :=
  Option Path × String

/-- The configuration that a file is, unless it pins another target. -/
def configOf? (d : Disk) (folder : Path) (target : String) (rule : ConfigRule) (file : Path) :
    Option Config :=
  if (Sdk.pinnedTarget d [file]).all (· = target) then
    let relative := file.relativeTo folder
    some (some relative, rule.nameFor relative.text)
  else none

/-- The configurations that a rule finds. -/
def configsOf (d : Disk) (folder : Path) (target : String) (rule : ConfigRule) :
    Except FindError (List Config) :=
  match Search.run d (folder.child rule.pattern).text with
  | .error e => .error (.configRule rule.pattern e)
  | .ok found =>
    let files := (found.filter d.isFile).mergeSort fun p q => (p.order q).isLE
    .ok (files.filterMap (configOf? d folder target rule))

/-- The name of the configuration without a file: the last rule without a pattern gives it. -/
def defaultConfigName (rules : List ConfigRule) : String :=
  (((rules.filter (·.pattern.isEmpty)).getLast?).map ConfigRule.configName).getD ""

/-- The configurations of an app for a target. -/
def configs (d : Disk) (rules : List ConfigRule) (folder : Path) (target : String) :
    Except FindError (List Config) := do
  let found ← (rules.filter fun r => !r.pattern.isEmpty).mapM (configsOf d folder target)
  return if found.flatten.isEmpty then [(none, defaultConfigName rules)] else found.flatten

/-! ## Apps -/

/-- What a search for apps goes by. -/
structure Query where
  disk : Disk
  settings : Settings
  manifest : Manifest
  gate : Gate
  /-- The environment, with the default targets of the search. -/
  env : Environment

/-- The target that an app with a configuration is pinned to. -/
def pinnedTarget (d : Disk) (folder : Path) (sdkconfig : Option Path) : Option String :=
  Sdk.pinnedTarget d (folder.child "sdkconfig.defaults" :: (sdkconfig.map folder.join).toList)

/-- The app of a folder with a target and a configuration, before anything is decided. -/
def plainApp (s : Settings) (folder : Path) (target : String) (config : Config) : App where
  folder := folder
  target := target
  sdkconfig := config.1
  configName := config.2
  workDir := s.workDir.map Path.text
  buildDir := s.buildDir
  buildLog := s.buildLog

/-- The app after the decision of the gate. -/
def withDecision (a : App) : Decision → App
  | .skip reason => { a with status := .skipped, buildComment := some reason }
  | .build reason => { a with status := .shouldBeBuilt, buildComment := some reason }
  | .defer => { a with status := .shouldBeBuilt }

/-- Decides about an app that the rule builds for, or explains why it does not. -/
def judge (s : Query) (rule : Rule) (a : App) (isEnabled : Bool) : Except EvalError App := do
  let ctx : Context := ⟨s.env, a.target, a.configName⟩
  if isEnabled then
    let testComment ← rule.testDisableReason ctx
    let decision ← s.gate.decide rule (s.disk.absolute a.folder) ctx
    return withDecision { a with testComment } decision
  else
    let buildComment ← rule.buildDisableReason ctx
    return { a with status := .disabled, buildComment }

/-- The app of a folder with a target and a configuration. There is none if it is pinned to
another target, or to one that the rule does not build for. -/
def appFor (s : Query) (rule : Rule) (folder : Path) (target : String) (config : Config) :
    Except EvalError (Option App) := do
  let pinned := pinnedTarget s.disk folder config.1
  if pinned.any (· ≠ target) then return none
  let targets ← rule.buildTargets s.env pinned config.2
  if pinned.isSome && targets.isEmpty then return none
  let app ← judge s rule (plainApp s.settings folder target config) (targets.contains target)
  return some app

/-- Whether an app belongs to the result. -/
def keeps (s : Settings) (a : App) : Bool :=
  match a.status with
  | .disabled => s.includeDisabled
  | .skipped => s.includeSkipped
  | _ => true

/-- The apps of a folder for a target. -/
def appsFor (s : Query) (folder : Path) (target : String) : Except FindError (List App) := do
  let rule := s.manifest.governingRule (s.disk.absolute folder)
  let rules := s.settings.configRules.map ConfigRule.read
  let found ← configs s.disk rules folder target
  let apps ← (found.mapM (appFor s rule folder target)).mapError FindError.eval
  return (apps.filterMap id).filter (keeps s.settings)

/-- The targets that apps are looked for. -/
def targets (s : Settings) (env : Environment) : List String :=
  if s.target = "all" then env.allTargets else [s.target]

/-- The targets built by default during a search; unknown ones are left out. -/
def defaultTargets (s : Settings) (env : Environment) : List String :=
  match s.defaultTargets with
  | some ts => ts.filter env.isKnown
  | none => env.targets.supported ++ if s.enablePreviewTargets then env.targets.preview else []

/-- The gate of a search. -/
def gateOf (d : Disk) (s : Settings) (m : Manifest) : Except FindError Gate := do
  let gate ← (Gate.make (d.absolute m.root) s.modifiedComponents s.modifiedFiles
    s.deactivatingComponents s.deactivatingPatterns).mapError FindError.option
  match s.manifestSnapshot with
  | none => return gate
  | some file =>
    let folders ← (m.compareSnapshot d file true).mapError FindError.manifest
    return gate.withManifestFolders folders

/-- The apps that a search in one folder finds, folder by folder and target by target. -/
def appsIn (s : Query) (folder : Path) : Except FindError (List App) := do
  let folders ← appFolders s.disk s.settings folder
  let apps ← folders.mapM fun app => do
    let found ← (targets s.settings s.env).mapM (appsFor s app)
    return found.flatten
  return apps.flatten

/-- The apps that the settings select, in order and without repeats. -/
def findApps (d : Disk) (s : Settings) (m : Manifest) (env : Environment) :
    Except FindError (List App) := do
  let gate ← gateOf d s m
  let query : Query := ⟨d, s, m, gate, env.overrideDefaults (defaultTargets s env)⟩
  let apps ← s.paths.mapM (appsIn query)
  return App.dropRepeats (App.sorted apps.flatten)

end Discovery

end BuildMatrix
