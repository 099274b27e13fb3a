import BuildMatrix.CommandLine.Run
import BuildMatrix.Disk.Change

/-!
# The program on a real disk

What a command may look at is read from the disk, the command is run on it, and what it has changed is
written back. That is the current folder, what arguments and variables name, and the settings files in
the folders around the current one.
-/

namespace BuildMatrix.CommandLine

/-- Puts a tree at an absolute path. -/
def place (d : Disk) (p : Path) (t : FileTree) : Disk :=
  match d.createFolders (p.parent?.getD p) with
  | .error _ => d
  | .ok d =>
    match d.locate p with
    | .error _ => d
    | .ok at' => { d with tree := d.tree.put at' t }

/-- The texts in arguments and variables that may name files or folders. -/
def candidates (args : List String) (vars : Table String String) : List String :=
  args ++ args.filterMap (fun a => (Text.cutAtFirst '=' a.toList).map fun c => String.ofList c.2) ++
    (Table.get? Settings.sdkVariable vars).toList

/-- The settings files that may be in the folders around a folder. -/
def settingsFiles (folder : Path) : List Path :=
  (Path.ancestors folder.components).flatMap fun cs =>
    Settings.fileNames.map (Path.ofComponents cs).child

/-- The variables in the text that the system keeps of them. -/
def variablesIn (text : String) : Table String String :=
  (Text.pieces '\x00' text).filterMap fun entry =>
    (Text.cutAtFirst '=' entry.toList).map fun (name, value) =>
      (String.ofList name, String.ofList value)

/-- Reads a file or a folder with all it holds. -/
partial def readTree (path : String) : IO FileTree := do
  let real ← IO.FS.realPath path
  if ← real.isDir then
    let entries ← real.readDir
    let names := (entries.map (·.fileName)).toList.mergeSort (· ≤ ·)
    return .folder (← names.mapM fun name => return (name, ← readTree (path ++ "/" ++ name)))
  else return .file (.ofBytes (← IO.FS.readBinFile path).toList)

/-- Reads what is at a path, if anything, and puts it at the same path. -/
def addPath (d : Disk) (p : Path) : IO Disk := do
  if d.pathExists p then return d
  try
    return place d p (← readTree p.text)
  catch _ => return d

/-- Makes a change. -/
def apply : Change → IO Unit
  | .createFolder at' => IO.FS.createDirAll (Disk.pathOf at').text
  | .write at' content => IO.FS.writeBinFile (Disk.pathOf at').text ⟨content.toBytes.toArray⟩
  | .remove at' => do
    let path ← IO.FS.realPath (Disk.pathOf at').text
    if ← path.isDir then IO.FS.removeDirAll path else IO.FS.removeFile path

/-- The variables of the process. -/
def readVariables : IO (Table String String) := do
  try
    return variablesIn (← IO.FS.readFile "/proc/self/environ")
  catch _ => return []

/-- Reads the disk, runs the program and writes the disk back. -/
def runOnDisk (args : List String) : IO UInt32 := do
  let here : Path := ⟨(← IO.currentDir).toString⟩
  let vars ← readVariables
  let named := (candidates args vars).map fun s => Path.absolutize ⟨s⟩ here
  let empty : Disk := ⟨.emptyFolder, []⟩
  let read ← (here :: named ++ settingsFiles here).foldlM addPath empty
  let before := (read.enter here).toOption.getD read
  let report := run Build.launchShell vars before args
  (FileTree.changes before.tree report.disk.tree).forM apply
  IO.print report.output
  IO.eprint report.errors
  return UInt32.ofNat report.exitCode

end BuildMatrix.CommandLine

/-- The program. -/
def main (args : List String) : IO UInt32 :=
  BuildMatrix.CommandLine.runOnDisk args
