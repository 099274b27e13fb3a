import BuildMatrix.Disk.Basic
import BuildMatrix.Json

/-!
# Apps

An app is a folder to be built for a target with a configuration. Its work and build folders are
templates in which `@i`, `@t`, `@n`, `@f` and `@w` stand for its index, target, name, folder and config
name.
-/

namespace BuildMatrix

/-- Where an app stands. -/
inductive BuildStatus
  | unknown
  | disabled
  | skipped
  | shouldBeBuilt
  | failed
  | success
  deriving DecidableEq, Repr

namespace BuildStatus

/-- The name of a status in messages. -/
def label : BuildStatus → String
  | unknown => "unknown"
  | disabled => "disabled"
  | skipped => "skipped"
  | shouldBeBuilt => "should be built"
  | failed => "build failed"
  | success => "build success"

/-- The name of a status in records. -/
def key : BuildStatus → String
  | unknown => "unknown"
  | disabled => "disabled"
  | skipped => "skipped"
  | shouldBeBuilt => "should_be_built"
  | failed => "failed"
  | success => "success"

end BuildStatus

/-- A folder to be built for a target with a configuration. -/
structure App where
  folder : Path
  target : String
  /-- The file of the configuration, relative to the folder. -/
  sdkconfig : Option Path := none
  configName : String := ""
  /-- The template of the work folder; without one it is the app's folder. -/
  workDir : Option String := none
  /-- The template of the build folder, relative to the work folder. -/
  buildDir : String := "build"
  /-- The template of the log file, relative to the build folder. -/
  buildLog : Option String := none
  status : BuildStatus := .unknown
  buildComment : Option String := none
  testComment : Option String := none
  /-- The place in a build run, counted from one. -/
  index : Option Nat := none
  deriving DecidableEq, Repr

namespace App

/-- The name of the folder. -/
def name (a : App) : String :=
  a.folder.fileName?.getD ""

/-! ## Templates -/

/-- The folder with underscores for slashes. -/
def flatFolder (a : App) : List Char :=
  a.folder.text.toList.map fun c => if c = '/' then '_' else c

/-- Cuts a text at the first occurrence of `part`: what is before and what is after. -/
def cutAtText (part : List Char) : List Char → Option (List Char × List Char)
  | [] => none
  | c :: cs =>
    if part.isPrefixOf (c :: cs) then some ([], (c :: cs).drop part.length)
    else (cutAtText part cs).map fun (before, after) => (c :: before, after)

/-- Puts the config name for its placeholder. An empty one takes the first placeholder away
together with the character before it. -/
def expandConfigName (configName : String) (cs : List Char) : List Char :=
  if configName.isEmpty then
    match cutAtText ['@', 'w'] cs with
    | some (before, after) => before.dropLast ++ after
    | none => cs
  else Text.replaceAll ['@', 'w'] configName.toList cs

/-- Puts the index for its placeholder, if there is an index. -/
def expandIndex (index : Option Nat) (cs : List Char) : List Char :=
  match index with
  | some i => Text.replaceAll ['@', 'i'] (toString i).toList cs
  | none => cs

/-- Puts what they stand for in the place of placeholders, one kind after the other. -/
def expandChars (a : App) (template : List Char) : List Char :=
  let cs := expandIndex a.index template
  let cs := Text.replaceAll ['@', 't'] a.target.toList cs
  let cs := Text.replaceAll ['@', 'n'] a.name.toList cs
  let cs := Text.replaceAll ['@', 'f'] a.flatFolder cs
  expandConfigName a.configName cs

/-- A template with its placeholders filled in. -/
def expand (a : App) (template : String) : String :=
  String.ofList (a.expandChars template.toList)

/-! ## Paths -/

/-- The folder that the app is built from. -/
def workPath (a : App) : Path :=
  match a.workDir with
  | some template => ⟨a.expand template⟩
  | none => a.folder

/-- The folder that the app is built into. -/
def buildPath (a : App) : Path :=
  let build : Path := ⟨a.expand a.buildDir⟩
  if build.isAbsolute then build else (a.workPath.join build).normalize

/-- The file that the build log is written to. -/
def buildLogPath (a : App) : Option Path :=
  a.buildLog.map fun template => a.buildPath.child (a.expand template)

/-- The files of defaults that exist, in the order that they are applied in. -/
def sdkconfigDefaults (a : App) (d : Disk) : List Path :=
  let work := a.workPath
  ([work.child "sdkconfig.defaults", work.child ("sdkconfig.defaults." ++ a.target)] ++
    (a.sdkconfig.map work.join).toList).filter d.isFile

/-- The path of a file that records are collected in; `@p` stands for the number of the job. -/
def collectPath (template : Path) (job : Nat) : Path :=
  ⟨String.ofList (Text.replaceAll ['@', 'p'] (toString job).toList template.text.toList)⟩

/-- The app in messages. -/
def describe (a : App) : String :=
  "App " ++ a.folder.text ++ ", target " ++ a.target ++ ", sdkconfig " ++
    (a.sdkconfig.map Path.text).getD "(default)" ++ ", build in " ++ a.buildPath.text

/-! ## Records -/

/-- The record of an app with its paths filled in. -/
def record (a : App) : JsonValue :=
  let path (p : Path) := JsonValue.str p.text
  let path? (p : Option Path) := JsonValue.ofOption (p.map Path.text)
  .obj [
    ("name", .str a.name),
    ("app_dir", path a.folder),
    ("target", .str a.target),
    ("config_name", .str a.configName),
    ("sdkconfig_path", path? a.sdkconfig),
    ("work_dir", path a.workPath),
    ("build_path", path a.buildPath),
    ("build_log_path", path? a.buildLogPath),
    ("build_status", .str a.status.key),
    ("build_comment", .ofOption a.buildComment),
    ("test_comment", .ofOption a.testComment)]

/-! ## Order -/

/-- The order of paths that may be missing; a missing one is first. -/
def orderSdkconfig : Option Path → Option Path → Ordering
  | none, none => .eq
  | none, some _ => .lt
  | some _, none => .gt
  | some p, some q => p.order q

/-- The order of apps: by folder, target, config name and file of the configuration. -/
def order (a b : App) : Ordering :=
  (a.folder.order b.folder).then <| (compare a.target b.target).then <|
    (compare a.configName b.configName).then (orderSdkconfig a.sdkconfig b.sdkconfig)

/-- Whether two paths that may be missing have the same components. -/
def sameSdkconfig : Option Path → Option Path → Bool
  | none, none => true
  | some p, some q => p.same q
  | _, _ => false

/-- Whether two apps agree in everything, paths being compared by their components. -/
def same (a b : App) : Bool :=
  a.folder.same b.folder && sameSdkconfig a.sdkconfig b.sdkconfig &&
    decide ({ a with folder := b.folder, sdkconfig := b.sdkconfig } = b)

/-- Apps in order; those of equal rank keep their order. -/
def sorted (apps : List App) : List App :=
  apps.mergeSort fun a b => (a.order b).isLE

/-- Drops each app that is the same as the one kept before it. -/
def dropRepeatsAfter (a : App) : List App → List App
  | [] => []
  | b :: bs => if a.same b then dropRepeatsAfter a bs else b :: dropRepeatsAfter b bs

/-- Drops each app that is the same as the one before it. -/
def dropRepeats : List App → List App
  | [] => []
  | a :: as => a :: dropRepeatsAfter a as

end App

end BuildMatrix
