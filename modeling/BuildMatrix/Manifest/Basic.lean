import BuildMatrix.Manifest.Document
import BuildMatrix.Manifest.Rule
import BuildMatrix.Path.Sorted

/-!
# Manifests

A manifest holds one rule for each of some folders, in the order of the folders. The rule of the
nearest folder at or above a path governs the path; above the manifest's root nobody looks. Of several
declarations of one folder the first counts; a strict reader refuses them, and folders that do not
exist as well.
-/

namespace BuildMatrix

/-- Rules of folders below or beside a root. -/
structure Manifest where
  /-- Rules in the order of their folders, one for each. -/
  rules : List Rule
  root : Path
  deriving DecidableEq, Repr

namespace Manifest

/-- The manifest of some rules. -/
def ofRules (rules : List Rule) (root : Path) : Manifest where
  rules := Path.sortNew Rule.folder rules
  root := root

/-- The rule of a folder, given by its components. -/
def ruleAt? (m : Manifest) (folder : List Component) : Option Rule :=
  m.rules.find? fun r => r.folder.components == folder

/-- The rule of the first folder in a list that has one. The list is left after the root. -/
def firstRule? (m : Manifest) : List (List Component) → Option Rule
  | [] => none
  | folder :: folders =>
    match m.ruleAt? folder with
    | some r => some r
    | none => if folder = m.root.components then none else firstRule? m folders

/-- The rule that governs a path; without one it is the rule that says nothing. -/
def governingRule (m : Manifest) (p : Path) : Rule :=
  let p := p.absolutize m.root
  (m.firstRule? (Path.ancestors p.components)).getD (Rule.default p)

/-! ## Reading -/

/-- Reads the folders of a document into rules, after those already read from the same file. A
second declaration of a folder is not even looked at. -/
def readFolders (d : Disk) (file root : Path) (strict : Bool) :
    List Rule → Entries → Except ManifestError (List Rule)
  | rules, [] => .ok rules
  | rules, (key, value) :: es =>
    match key.asString? with
    | none => readFolders d file root strict rules es
    | some name =>
      let folder := Path.absolutize ⟨name⟩ root
      if strict && !d.pathExists folder then .error (.missingFolder folder file)
      else
        match rules.find? fun r => r.folder.same folder with
        | some first =>
          if strict then .error (.duplicateFolder folder (first.file.getD .empty) file)
          else readFolders d file root strict rules es
        | none =>
          match Rule.ofYaml folder value.asMap? file with
          | .error e => .error e
          | .ok r => readFolders d file root strict (rules ++ [r]) es

/-- Reads the rules of a file. -/
def readFile (d : Disk) (file root : Path) (strict : Bool) : Except ManifestError (List Rule) :=
  match d.readText file with
  | .error e => .error (.disk e)
  | .ok content =>
    match loadDocument file content with
    | .error e => .error e
    | .ok es => readFolders d file root strict [] es

/-- Adds the rules of one more file. -/
def addRules (file : Path) (strict : Bool) :
    List Rule → List Rule → Except ManifestError (List Rule)
  | rules, [] => .ok rules
  | rules, r :: rs =>
    match rules.find? fun s => s.folder.same r.folder with
    | some first =>
      if strict then .error (.duplicateFolder r.folder (first.file.getD .empty) file)
      else addRules file strict rules rs
    | none => addRules file strict (Path.insertNew Rule.folder r rules) rs

/-- Reads some files one after the other. -/
def readFiles (d : Disk) (root : Path) (strict : Bool) :
    List Rule → List Path → Except ManifestError (List Rule)
  | rules, [] => .ok rules
  | rules, file :: files =>
    match readFile d file root strict with
    | .error e => .error e
    | .ok rs =>
      match addRules file strict rules rs with
      | .error e => .error e
      | .ok rules => readFiles d root strict rules files

/-- The manifest that some files make up. Their folders are relative to `root`. -/
def load (d : Disk) (files : List Path) (root : Path) (strict : Bool) :
    Except ManifestError Manifest :=
  (readFiles d (d.absolute root) strict [] files).map fun rules => ⟨rules, d.absolute root⟩

end Manifest

end BuildMatrix
