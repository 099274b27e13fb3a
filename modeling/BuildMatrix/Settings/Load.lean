import BuildMatrix.Settings.Check
import BuildMatrix.Settings.Document

/-!
# Settings files

A settings file is TOML if its name says so and YAML otherwise. Paths in it are relative to its
folder. Without a name the first settings file in a folder or in the folders around it is taken.
-/

namespace BuildMatrix.Settings

/-- The settings in the content of a file. -/
def ofContent (file : Path) (content : String) : Except ConfigError Settings :=
  if file.extension? = some "toml" then
    match ofToml? content with
    | some s => .ok s
    | none => .error .toml
  else
    match ofYaml? content with
    | some s => .ok s
    | none => .error .yaml

/-- Reads a settings file without checking the settings. -/
def readFile (d : Disk) (file : Path) : Except ConfigError Settings :=
  if !d.isFile file then .error (.notFound file)
  else
    match d.readText file with
    | .error e => .error (.disk e)
    | .ok content =>
      (ofContent file content).map fun s =>
        match file.parent? with
        | some base => s.rebase base
        | none => s

/-- Reads a settings file. -/
def load (d : Disk) (file : Path) : Except SettingsError Settings := do
  let s ← (readFile d file).mapError SettingsError.config
  s.check
  return s

/-- The names of settings files, the preferred ones first. -/
def fileNames : List String :=
  ["firmbuild.toml", ".firmbuild.toml", "firmbuild.yaml", ".firmbuild.yaml"]

/-- The settings file in a folder or, at most `depth` steps up, in a folder around it. -/
def findFileWithin (d : Disk) : Nat → Path → Option Path
  | depth, folder =>
    match (fileNames.map folder.child).find? d.isFile with
    | some file => some file
    | none =>
      match depth, folder.parent? with
      | depth + 1, some outer => findFileWithin d depth outer
      | _, _ => none

/-- The settings file for a folder. -/
def findFile (d : Disk) (folder : Path) : Option Path :=
  findFileWithin d folder.components.length folder

/-- The settings for a folder and the file that they come from, if there is one. -/
def loadFor (d : Disk) (folder : Path) : Except SettingsError (Settings × Option Path) :=
  match findFile d folder with
  | some file => (load d file).map (·, some file)
  | none => .ok ({}, none)

end BuildMatrix.Settings
