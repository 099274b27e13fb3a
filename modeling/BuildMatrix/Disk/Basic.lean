import BuildMatrix.Disk.Tree
import BuildMatrix.Path.Normal
import BuildMatrix.Text.Number

/-!
# The disk

A disk is a file tree with a current folder. Paths are followed name by name, and every operation
that can fail says why. There are no links, so a step to the parent always undoes a step to a
child.
-/

namespace BuildMatrix

/-- Why an operation on the disk fails. -/
inductive DiskError
  | notFound
  | notAFolder
  | isAFolder
  | alreadyExists
  | invalidInput
  | notText
  | nameTooLong
  | invalidArgument
  deriving DecidableEq, Repr

/-- The text of an error. -/
def DiskError.message : DiskError → String
  | notFound => "No such file or directory (os error 2)"
  | notAFolder => "Not a directory (os error 20)"
  | isAFolder => "Is a directory (os error 21)"
  | alreadyExists => "File exists (os error 17)"
  | invalidInput => "the source path is neither a regular file nor a symlink to a regular file"
  | notText => "stream did not contain valid UTF-8"
  | nameTooLong => "File name too long (os error 36)"
  | invalidArgument => "Invalid argument (os error 22)"

/-- The text of an error that stops a walk through a folder. -/
def DiskError.walkMessage (e : DiskError) (folder : Path) : String :=
  "IO error for operation on " ++ folder.text ++ ": " ++ e.message

/-- A file tree and the place of the current folder in it. -/
structure Disk where
  tree : FileTree
  cwd : List String
  deriving Repr, Inhabited

namespace Disk

/-- The path of a place. -/
def pathOf (place : List String) : Path :=
  ⟨"/" ++ "/".intercalate place⟩

/-- The path of the current folder. -/
def cwdPath (d : Disk) : Path :=
  pathOf d.cwd

/-- The place one step on. -/
def step (place : List String) (piece : List Char) : List String :=
  match Component.ofPiece? piece with
  | some .parent => place.dropLast
  | some (.name s) => place ++ [s]
  | _ => place

/-- Follows the pieces of a path from a place. Every place on the way must be a folder. -/
def follow (t : FileTree) (place : List String) : List (List Char) → Except DiskError (List String)
  | [] => .ok place
  | piece :: pieces =>
    match t.get? place with
    | none => .error .notFound
    | some (.file _) => .error .notAFolder
    | some (.folder _) => follow t (step place piece) pieces

/-- The greatest number of bytes in the text of a path. -/
def longestPath : Nat := 4095

/-- The greatest number of bytes in a name. -/
def longestName : Nat := 255

/-- The place that a path names; it need not exist itself. -/
def locate (d : Disk) (p : Path) : Except DiskError (List String) :=
  if p.text.isEmpty then .error .notFound
  else if longestPath < p.text.utf8ByteSize then .error .nameTooLong
  else if p.bodyPieces.any fun piece => longestName < Text.byteLength piece then .error .nameTooLong
  else follow d.tree (if p.isAbsolute then [] else d.cwd) p.bodyPieces

/-- The tree that a path names. -/
def find (d : Disk) (p : Path) : Except DiskError FileTree :=
  match d.locate p with
  | .error e => .error e
  | .ok place =>
    match d.tree.get? place with
    | some t => .ok t
    | none => .error .notFound

/-- Whether a path names a file. -/
def isFile (d : Disk) (p : Path) : Bool :=
  match d.find p with
  | .ok (.file _) => true
  | _ => false

/-- Whether a path names a folder. -/
def isFolder (d : Disk) (p : Path) : Bool :=
  match d.find p with
  | .ok (.folder _) => true
  | _ => false

/-- Whether a path names anything. -/
def pathExists (d : Disk) (p : Path) : Bool :=
  match d.find p with
  | .ok _ => true
  | .error _ => false

/-- The text of a file. -/
def readText (d : Disk) (p : Path) : Except DiskError String :=
  match d.find p with
  | .error e => .error e
  | .ok (.folder _) => .error .isAFolder
  | .ok (.file (.text s)) => .ok s
  | .ok (.file (.binary _)) => .error .notText

/-- The absolute normal form of a path. -/
def absolute (d : Disk) (p : Path) : Path :=
  p.absolutize d.cwdPath

/-- The disk with a path as its current folder. -/
def enter (d : Disk) (p : Path) : Except DiskError Disk :=
  match d.locate p with
  | .error e => .error e
  | .ok place =>
    match d.tree.get? place with
    | none => .error .notFound
    | some (.file _) => .error .notAFolder
    | some (.folder _) => .ok { d with cwd := place }

/-! ## Changes -/

/-- The path without the slashes at its end, if there are any. -/
def withoutSlashes? (p : Path) : Option Path :=
  match p.text.toList.reverse with
  | '/' :: cs => some ⟨String.ofList (cs.dropWhile (· = '/')).reverse⟩
  | _ => none

/-- The place of a file to be written. A slash at the end of a path asks for a folder. -/
def locateFile (d : Disk) (p : Path) : Except DiskError (List String) :=
  match withoutSlashes? p with
  | none => d.locate p
  | some q => if q.text.isEmpty then .error .isAFolder else (d.locate q).bind fun _ => .error .isAFolder

/-- Puts a file where a path names nothing yet or a file. -/
def writeContent (d : Disk) (p : Path) (change : Option Content → Content) :
    Except DiskError Disk :=
  match d.locateFile p with
  | .error e => .error e
  | .ok place =>
    match d.tree.get? place, d.tree.get? place.dropLast with
    | some (.folder _), _ => .error .isAFolder
    | some (.file c), _ => .ok { d with tree := d.tree.put place (.file (change (some c))) }
    | none, some (.folder _) => .ok { d with tree := d.tree.put place (.file (change none)) }
    | none, some (.file _) => .error .notAFolder
    | none, none => .error .notFound

/-- Writes a text as the whole content of a file. -/
def writeText (d : Disk) (p : Path) (s : String) : Except DiskError Disk :=
  d.writeContent p fun _ => .text s

/-- Appends a text to a file, which is created if need be. -/
def appendText (d : Disk) (p : Path) (s : String) : Except DiskError Disk :=
  d.writeContent p fun
    | some c => c.append (.text s)
    | none => .text s

/-- The path without what says nothing at its end. -/
def withoutTail (p : Path) : Path :=
  Path.withStart p.start? (Path.trimEnd p.bodyPieces)

/-- Creates one folder. -/
def createFolder (d : Disk) (p : Path) : Except DiskError Disk :=
  match d.locate (withoutTail p) with
  | .error e => .error e
  | .ok place =>
    match d.tree.get? place, d.tree.get? place.dropLast with
    | some _, _ => .error .alreadyExists
    | none, some (.folder _) => .ok { d with tree := d.tree.put place .emptyFolder }
    | none, some (.file _) => .error .notAFolder
    | none, none => .error .notFound

/-- Creates a folder and, `depth` levels up, the folders around it. -/
def createFoldersWithin : Nat → Disk → Path → Except DiskError Disk
  | 0, d, p => d.createFolder p
  | depth + 1, d, p =>
    if p.text.isEmpty then .ok d
    else
      match d.createFolder p with
      | .ok d => .ok d
      | .error .notFound =>
        match p.parent? with
        | none => .error .notFound
        | some q =>
          match createFoldersWithin depth d q with
          | .error e => .error e
          | .ok d =>
            match d.createFolder p with
            | .ok d => .ok d
            | .error e => if d.isFolder p then .ok d else .error e
      | .error e => if d.isFolder p then .ok d else .error e

/-- Creates a folder and the folders around it, as far as they are missing. -/
def createFolders (d : Disk) (p : Path) : Except DiskError Disk :=
  createFoldersWithin p.components.length d p

/-- The last piece of a path that is not empty. -/
def lastPiece? (p : Path) : Option (List Char) :=
  (p.bodyPieces.filter (! ·.isEmpty)).getLast?

/-- Takes away a folder with all it holds. A folder named by a dot is emptied and stays, and one named by
two dots is lost with what it holds before it can be taken away. -/
def removeFolder (d : Disk) (p : Path) : Disk × Option DiskError :=
  match d.locate p with
  | .error e => (d, some e)
  | .ok place =>
    match d.tree.get? place with
    | none => (d, some .notFound)
    | some (.file _) => (d, some .notAFolder)
    | some (.folder _) =>
      let emptied := { d with tree := d.tree.put place .emptyFolder }
      if lastPiece? p = some ['.'] then (emptied, some .invalidArgument)
      else if lastPiece? p = some ['.', '.'] then (emptied, some .notFound)
      else ({ d with tree := d.tree.remove place }, none)

/-- Copies a file over another one, which is created if need be. The target is emptied before the source is
read, so a file that is copied over itself is lost. -/
def copyFile (d : Disk) (source target : Path) : Except DiskError Disk :=
  match d.find source with
  | .error e => .error e
  | .ok (.folder _) => .error .invalidInput
  | .ok (.file _) => do
    let d ← d.writeText target ""
    match d.find source with
    | .ok (.file c) => d.writeContent target fun _ => c
    | _ => return d

end Disk

end BuildMatrix
