import BuildMatrix.Build.Basic

/-!
# Work and build folders

Before an app is built its folder is copied to its work folder, if that is another one, and its build
folder is emptied. What is built is not copied: the walk through the app's folder does not enter a build
folder, and where the build path is a file, it leaves the folder of this file.
-/

namespace BuildMatrix.Build

/-- The file that marks a build folder. -/
def cacheName : String := "CMakeCache.txt"

/-- Whether a file or folder is left out of the work folder: the build folder of the app, and every
build folder. -/
def isLeftOut (d : Disk) (a : App) (source : Path) : Bool :=
  source.same a.buildPath || (d.isFolder source && d.isFile (source.child cacheName))

/-- The names of what a folder holds, in the order in which it lists them. -/
def namesIn (d : Disk) (folder : Path) : List String :=
  match d.find folder with
  | .ok t => t.children.map Prod.fst
  | .error _ => []

/-- The names that the walk through a folder comes to. Where a file is left out, so is all that the
folder lists behind it. -/
def namesWalked (d : Disk) (a : App) (folder : Path) : List String :=
  (namesIn d folder).takeWhile fun name =>
    !(d.isFile (folder.child name) && isLeftOut d a (folder.child name))

/-- Copies a file or folder of an app to the place that it has in the work folder. What a folder
holds is looked up when it is reached. Each level makes paths longer, so that `depth` as large as
the greatest length of a path is enough. -/
def copyFrom (depth : Nat) (a : App) (source : Path) : DiskTask Unit := do
  let d ← get
  match depth with
  | 0 => throw (.walk a.folder source .nameTooLong)
  | depth + 1 =>
    match d.find source with
    | .error e => throw (.walk a.folder source e)
    | .ok t =>
      let target := a.workPath.join ((source.strip? a.folder).getD source)
      if isLeftOut d a source then return
      else if t.isFolder then
        change target (·.createFolders target)
        (namesWalked (← get) a source).forM fun name => copyFrom depth a (source.child name)
      else change target (·.copyFile source target)

/-- Copies the folder of an app to its work folder, without build folders. -/
def prepareWorkFolder (a : App) : DiskTask Unit :=
  if a.workPath.same a.folder then return
  else copyFrom (Disk.longestPath + 1) a a.folder

/-- Empties the build folder of an app, which is created if it is missing. -/
def prepareBuildFolder (a : App) : DiskTask Unit := do
  if (← get).pathExists a.buildPath then
    let (d, error?) := (← get).removeFolder a.buildPath
    set d
    if let some e := error? then throw (.prepare a.buildPath e)
  change a.buildPath (·.createFolders a.buildPath)

end BuildMatrix.Build
