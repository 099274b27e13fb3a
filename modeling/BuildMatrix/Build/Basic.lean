import BuildMatrix.App.Basic

/-!
# Builders

A builder turns apps into artifacts on the disk. It succeeds or fails with a log, or it cannot do its
work at all.
-/

namespace BuildMatrix

/-- Why a build cannot be done. -/
inductive BuildError
  | sdkMissing
  /-- A command cannot be run. -/
  | launch (command : String) (e : DiskError)
  /-- A file or a folder cannot be made ready. -/
  | prepare (path : Path) (e : DiskError)
  /-- The folder of an app cannot be walked through at a place. -/
  | walk (folder place : Path) (e : DiskError)
  deriving DecidableEq, Repr

/-- The message of an error. -/
def BuildError.message : BuildError → String
  | sdkMissing => "IDF_PATH is not set, cannot locate idf.py"
  | launch command e => "Failed to run " ++ command ++ ": " ++ e.message
  | prepare path e => "Failed to prepare " ++ path.text ++ ": " ++ e.message
  | walk folder place e => "Failed to prepare " ++ folder.text ++ ": " ++ e.walkMessage place

namespace Build

/-- What all apps of a run are built with. -/
structure Request where
  sdkPath : Option Path := none
  isDryRun : Bool := false
  deriving DecidableEq, Repr

/-- The result of building an app. -/
structure Outcome where
  isSuccess : Bool
  logLines : List String := []
  deriving DecidableEq, Repr

/-- Work that changes the disk, also when it fails. -/
abbrev DiskTask :=
  ExceptT BuildError (StateM Disk)

/-- What builds apps. -/
structure Builder where
  name : String
  build : App → Request → DiskTask Outcome

/-- Changes the disk, or fails at a path. -/
def change (path : Path) (f : Disk → Except DiskError Disk) : DiskTask Unit := do
  match f (← get) with
  | .ok d => set d
  | .error e => throw (.prepare path e)

end Build

end BuildMatrix
