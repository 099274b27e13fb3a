import BuildMatrix.Manifest.Basic

/-!
# Snapshots of manifests

A snapshot is a text with one line for each rule: the folder relative to the root, a colon, and the
digest. Comparing a manifest with a snapshot gives the folders whose rules differ.
-/

namespace BuildMatrix.Manifest

/-- The line of a rule. -/
def snapshotLine (root : Path) (r : Rule) : String :=
  (r.folder.relativeTo root).text ++ ":" ++ r.sha ++ "\n"

/-- The snapshot of a manifest. -/
def snapshot (m : Manifest) : String :=
  String.join (m.rules.map (snapshotLine m.root))

/-- Writes the snapshot of a manifest to a file. -/
def writeSnapshot (m : Manifest) (d : Disk) (file : Path) : Except ManifestError Disk :=
  (d.writeText file m.snapshot).mapError ManifestError.disk

/-- The folder and the digest of a line without white space at its ends. -/
def splitLine? (line : List Char) : Option (String × String) :=
  match Text.cutAtLast ':' line with
  | some (folder@(_ :: _), sha@(_ :: _)) => some (String.ofList folder, String.ofList sha)
  | _ => none

/-- Recorded digests of folders, in the order of the folders. -/
abbrev Recorded :=
  List (Path × String)

/-- Records the digest of a folder. A later one replaces an earlier one. -/
def record (folder : Path) (sha : String) : Recorded → Recorded
  | [] => [(folder, sha)]
  | (p, s) :: rest =>
    match folder.order p with
    | .lt => (folder, sha) :: (p, s) :: rest
    | .eq => (p, sha) :: rest
    | .gt => (p, s) :: record folder sha rest

/-- Reads numbered lines of a snapshot; empty ones are passed over. -/
def readLines (file root : Path) :
    Recorded → List (List Char × Nat) → Except ManifestError Recorded
  | recorded, [] => .ok recorded
  | recorded, (line, i) :: rest =>
    match Text.trimChars line with
    | [] => readLines file root recorded rest
    | line =>
      match splitLine? line with
      | none => .error (.malformedLine file (i + 1) (String.ofList line))
      | some (folder, sha) =>
        readLines file root (record (Path.absolutize ⟨folder⟩ root) sha recorded) rest

/-- Reads a snapshot whose folders are relative to `root`. -/
def readSnapshot (file root : Path) (content : String) : Except ManifestError Recorded :=
  readLines file root [] (Text.linesOf content.toList).zipIdx

/-- The folders whose rules differ from what is recorded: those recorded with another digest or
without a rule, then those with a rule that are not recorded. -/
def changes (m : Manifest) (recorded : Recorded) : List Path :=
  (recorded.filter fun (folder, sha) =>
    (m.ruleAt? folder.components).all fun r => r.sha ≠ sha).map Prod.fst ++
  (m.rules.filter fun r => !recorded.any fun e => e.1.same r.folder).map Rule.folder

/-- The folders whose rules differ from what is recorded, in order and each once. -/
def changedFolders (m : Manifest) (recorded : Recorded) : List Path :=
  Path.sortNew id (m.changes recorded)

/-- The folders whose rules differ from a snapshot in a file, absolute or relative to the root. -/
def compareSnapshot (m : Manifest) (d : Disk) (file : Path) (isAbsolute : Bool) :
    Except ManifestError (List Path) :=
  match d.readText file with
  | .error e => .error (.disk e)
  | .ok content =>
    match readSnapshot file m.root content with
    | .error e => .error e
    | .ok recorded =>
      let folders := m.changedFolders recorded
      .ok (if isAbsolute then folders else Path.sortNew id (folders.map (Path.relativeTo · m.root)))

end BuildMatrix.Manifest
