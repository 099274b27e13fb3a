import BuildMatrix.Disk.Basic
import BuildMatrix.Manifest.Dependency

/-!
# Errors of manifests
-/

namespace BuildMatrix

/-- What is wrong in a manifest file that is YAML. -/
inductive ManifestFault
  | notMapping
  | folderNotText (key : Yaml)
  | ruleNotMapping (folder : String) (value : Yaml)
  | listExpected (key folder : String) (value : Yaml)
  | unknownKey (key : Yaml) (folder : Path)
  | ruleListExpected (key : String) (value : Yaml)
  | clauseNotMapping (key : String) (entry : Yaml)
  | clauseEntry (key : String) (name value : Yaml)
  | missingCondition (key : String)
  | clause (e : ClauseError)
  | dependency (e : DependencyError)
  deriving Repr

/-- Why manifests cannot be used. -/
inductive ManifestError
  | clause (e : ClauseError)
  | invalid (file : Path) (fault : ManifestFault)
  | missingFolder (folder file : Path)
  | duplicateFolder (folder first second : Path)
  | malformedLine (file : Path) (number : Nat) (line : String)
  | yaml (file : Path)
  | disk (e : DiskError)
  deriving Repr

/-- The message of a fault. -/
def ManifestFault.message : ManifestFault → String
  | notMapping => "top level must be a mapping"
  | folderNotText key => "folder key must be a string, got " ++ key.describe
  | ruleNotMapping folder value =>
    "rule of folder \"" ++ folder ++ "\" must be a mapping, got " ++ value.describe
  | listExpected key folder value =>
    "\"" ++ key ++ "\" of folder \"" ++ folder ++ "\" must be a list, got " ++ value.describe
  | unknownKey key folder =>
    "unknown key " ++ key.describe ++ " in rule of folder \"" ++ folder.text ++ "\""
  | ruleListExpected key value => "\"" ++ key ++ "\" must be a list, got " ++ value.describe
  | clauseNotMapping key entry =>
    "\"" ++ key ++ "\" entries must be mappings with an \"if\" key, got " ++ entry.describe
  | clauseEntry key name value =>
    "invalid entry " ++ name.describe ++ ": " ++ value.describe ++ " in \"" ++ key ++ "\""
  | missingCondition key => "\"" ++ key ++ "\" entry is missing the \"if\" key"
  | clause e => e.message
  | dependency e => e.message

/-- The message of an error; for a file that is not YAML the reason is left out. -/
def ManifestError.message : ManifestError → String
  | clause e => e.message
  | invalid file fault => "Invalid manifest file " ++ file.text ++ ": " ++ fault.message
  | missingFolder folder file =>
    "Folder \"" ++ folder.text ++ "\" does not exist. Please check your manifest file " ++ file.text
  | duplicateFolder folder first second =>
    "Folder \"" ++ folder.text ++ "\" is already defined in " ++ first.text ++ ", redefined in " ++
      second.text
  | malformedLine file number line =>
    "Malformed line " ++ toString number ++ " in sha file " ++ file.text ++ ": " ++
      Text.quoted line
  | yaml file => "YAML parsing error in " ++ file.text
  | disk e => "IO error: " ++ e.message

end BuildMatrix
