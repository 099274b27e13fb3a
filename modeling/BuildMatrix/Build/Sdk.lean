import BuildMatrix.Build.Folder
import BuildMatrix.Build.Launch
import BuildMatrix.Settings.Basic
import BuildMatrix.Text.Lossy

/-!
# Building with the SDK

An app is built by the build tool of the SDK, which an interpreter runs in freshly prepared folders. What
the tool prints is the build log.
-/

namespace BuildMatrix.Build

/-- The arguments of the interpreter: the build tool with the folders, the target and the files of
defaults. -/
def arguments (d : Disk) (a : App) (sdkPath : Path) : List String :=
  let defaults := (a.sdkconfigDefaults d).map Path.text
  [((sdkPath.child "tools").child "idf.py").text, "-B", a.buildPath.text, "-C", a.workPath.text,
    "-DIDF_TARGET=" ++ a.target] ++
    (if defaults.isEmpty then [] else ["-DSDKCONFIG_DEFAULTS=" ++ Text.joinWith ";" defaults]) ++
    ["build"]

/-- The text of what a command has printed. -/
def logOf (r : Finished) : String :=
  String.ofList (Text.decodeLossy r.output ++ Text.decodeLossy r.errors)

/-- The command that builds an app. -/
def commandFor (d : Disk) (interpreter : String) (vars : Table String String) (a : App)
    (sdkPath : Path) : Command where
  program := interpreter
  arguments := arguments d a sdkPath
  vars := Table.insert Settings.sdkVariable sdkPath.text vars

/-- Builds an app, after its folders have been prepared. -/
def buildWith (launch : Launcher) (interpreter : String) (vars : Table String String) (a : App)
    (sdkPath : Path) : DiskTask Outcome := do
  let command := commandFor (← get) interpreter vars a sdkPath
  prepareWorkFolder a
  prepareBuildFolder a
  match launch (← get) command with
  | .error e => throw (.launch command.render e)
  | .ok r =>
    if let some file := a.buildLogPath then
      change file (·.writeText file (logOf r))
    return ⟨r.isSuccess, Text.lines (logOf r)⟩

/-- The builder of the SDK. A dry run does nothing. -/
def sdkBuilder (launch : Launcher) (interpreter : String) (vars : Table String String) :
    Builder where
  name := "idf.py"
  build := fun a request =>
    if request.isDryRun then return ⟨true, []⟩
    else
      match request.sdkPath with
      | none => throw .sdkMissing
      | some sdkPath => buildWith launch interpreter vars a sdkPath

end BuildMatrix.Build
