import BuildMatrix.Settings.Basic
import BuildMatrix.Toml.Document
import BuildMatrix.Yaml.Load

/-!
# Settings in documents

Settings are read from the entries of a document. Unknown entries say nothing; an entry with a value of
the wrong kind spoils the document. YAML takes any scalar for a text and an absent node for an empty list.
-/

namespace BuildMatrix.Settings

/-- How the values of a kind of document are read. -/
structure ValueReader (α : Type) where
  text? : α → Option String
  texts? : α → Option (List String)
  flag? : α → Option Bool
  count? : α → Option Nat
  /-- Whether a value stands for a missing one, if that can be told. -/
  isMissing? : α → Option Bool

namespace ValueReader

/-- Reads a value that may be missing. -/
def optional {α β : Type} (r : ValueReader α) (read : α → Option β) (v : α) :
    Option (Option β) :=
  match r.isMissing? v with
  | none => none
  | some true => some none
  | some false => (read v).map some

/-- Reads a path. -/
def path? {α : Type} (r : ValueReader α) (v : α) : Option Path :=
  (r.text? v).map Path.mk

/-- Reads a list of paths. -/
def paths? {α : Type} (r : ValueReader α) (v : α) : Option (List Path) :=
  (r.texts? v).map (List.map Path.mk)

end ValueReader

/-- Changes settings by an entry; none if its value is of the wrong kind. -/
def setEntry {α : Type} (r : ValueReader α) (s : Settings) (name : String) (v : α) :
    Option Settings :=
  match name with
  | "paths" => (r.paths? v).map fun paths => { s with paths }
  | "target" => (r.text? v).map fun target => { s with target }
  | "recursive" => (r.flag? v).map fun recursive => { s with recursive }
  | "exclude" => (r.paths? v).map fun exclude => { s with exclude }
  | "work_dir" => (r.optional r.path? v).map fun workDir => { s with workDir }
  | "build_dir" => (r.text? v).map fun buildDir => { s with buildDir }
  | "build_log_filename" => (r.optional r.text? v).map fun buildLog => { s with buildLog }
  | "config_rules" => (r.texts? v).map fun configRules => { s with configRules }
  | "manifest_files" => (r.paths? v).map fun manifestFiles => { s with manifestFiles }
  | "manifest_rootpath" => (r.path? v).map fun manifestRoot => { s with manifestRoot }
  | "check_manifest_rules" => (r.flag? v).map fun checkManifests => { s with checkManifests }
  | "default_build_targets" =>
    (r.optional r.texts? v).map fun defaultTargets => { s with defaultTargets }
  | "enable_preview_targets" =>
    (r.flag? v).map fun enablePreviewTargets => { s with enablePreviewTargets }
  | "modified_components" =>
    (r.optional r.texts? v).map fun modifiedComponents => { s with modifiedComponents }
  | "modified_files" => (r.optional r.paths? v).map fun modifiedFiles => { s with modifiedFiles }
  | "deactivate_dependency_driven_build_by_components" =>
    (r.optional r.texts? v).map fun deactivatingComponents => { s with deactivatingComponents }
  | "deactivate_dependency_driven_build_by_filepatterns" =>
    (r.optional r.texts? v).map fun deactivatingPatterns => { s with deactivatingPatterns }
  | "compare_manifest_sha_filepath" =>
    (r.optional r.path? v).map fun manifestSnapshot => { s with manifestSnapshot }
  | "idf_path" => (r.optional r.path? v).map fun sdkPath => { s with sdkPath }
  | "parallel_count" => (r.count? v).map fun jobCount => { s with jobCount }
  | "parallel_index" => (r.count? v).map fun jobIndex => { s with jobIndex }
  | "keep_going" => (r.flag? v).map fun keepGoing => { s with keepGoing }
  | "dry_run" => (r.flag? v).map fun dryRun => { s with dryRun }
  | "check_warnings" => (r.flag? v).map fun checkWarnings => { s with checkWarnings }
  | "ignore_warning_strs" => (r.texts? v).map fun ignoredWarnings => { s with ignoredWarnings }
  | "collect_app_info" => (r.optional r.path? v).map fun collectFile => { s with collectFile }
  | "include_skipped_apps" => (r.flag? v).map fun includeSkipped => { s with includeSkipped }
  | "include_disabled_apps" => (r.flag? v).map fun includeDisabled => { s with includeDisabled }
  | _ => some s

/-- The names of settings in documents. -/
def entryNames : List String :=
  ["paths", "target", "recursive", "exclude", "work_dir", "build_dir", "build_log_filename",
    "config_rules", "manifest_files", "manifest_rootpath", "check_manifest_rules",
    "default_build_targets", "enable_preview_targets", "modified_components", "modified_files",
    "deactivate_dependency_driven_build_by_components",
    "deactivate_dependency_driven_build_by_filepatterns", "compare_manifest_sha_filepath",
    "idf_path", "parallel_count", "parallel_index", "keep_going", "dry_run", "check_warnings",
    "ignore_warning_strs", "collect_app_info", "include_skipped_apps", "include_disabled_apps"]

/-- Whether a list holds a text twice. -/
def hasRepeats : List String → Bool
  | [] => false
  | s :: rest => rest.contains s || hasRepeats rest

/-- The settings that entries make up. No setting may be given twice. -/
def ofEntries {α : Type} (r : ValueReader α) (es : List (String × α)) : Option Settings :=
  if hasRepeats ((es.map Prod.fst).filter entryNames.contains) then none
  else es.foldlM (fun s e => setEntry r s e.1 e.2) {}

/-! ## TOML -/

/-- The text of a TOML value. -/
def tomlText? : Toml → Option String
  | .text s => some s
  | _ => none

/-- The reader of TOML values. -/
def tomlReader : ValueReader Toml where
  text? := tomlText?
  texts? := fun
    | .array items => items.mapM tomlText?
    | _ => none
  flag? := fun
    | .bool b => some b
    | _ => none
  count? := fun
    | .int n => if 0 ≤ n then some n.toNat else none
    | _ => none
  isMissing? := fun _ => some false

/-- The settings in a TOML document. -/
def ofToml? (content : String) : Option Settings :=
  (Toml.parse? content).bind (ofEntries tomlReader)

/-! ## YAML -/

/-- The node that a reference leads to, or the node itself. -/
def target? (a : Yaml.Anchors) : Yaml.Node Nat → Option (Yaml.Node Nat)
  | .alias id => a.find? id
  | n => some n

/-- The text of a scalar of any kind. -/
def yamlText? (a : Yaml.Anchors) (n : Yaml.Node Nat) : Option String :=
  match target? a n with
  | some (.scalar _ _ s) => some s
  | _ => none

/-- The text of a scalar without quotes. -/
def plainText? (a : Yaml.Anchors) (n : Yaml.Node Nat) : Option String :=
  match target? a n with
  | some (.scalar _ true s) => some s
  | _ => none

/-- Whether a node stands for a missing value. A tag for null stands only before a text for null. -/
def isMissingNode? (a : Yaml.Anchors) (n : Yaml.Node Nat) : Option Bool :=
  match target? a n with
  | none => none
  | some (.scalar p true s) =>
    match p.tag with
    | none => some (s.isEmpty || Yaml.isNullText s)
    | some tag =>
      if tag ≠ Yaml.coreTag "null" then some false
      else if Yaml.isNullText s then some true
      else none
  | some _ => some false

/-- The reader of YAML nodes. -/
def yamlReader (a : Yaml.Anchors) : ValueReader (Yaml.Node Nat) where
  text? := yamlText? a
  texts? := fun n =>
    match target? a n with
    | some (.sequence _ items) => items.mapM (yamlText? a)
    | some (.scalar _ true "") => some []
    | _ => none
  flag? := fun n => (plainText? a n).bind Yaml.bool?
  count? := fun n =>
    match plainText? a n with
    | none => none
    | some s =>
      if s.toList.head? = some '-' then none
      else ((Yaml.integer? s.toList).map Int.toNat).filter (· < Text.unsignedBound)
  isMissing? := isMissingNode? a

/-- The settings in a YAML document. -/
def ofYaml? (content : String) : Option Settings :=
  match Yaml.linked? content with
  | none => none
  | some (none, _) | some (some (.scalar _ true ""), _) => some {}
  | some (some (.mapping _ entries), a) =>
    (entries.mapM fun (e : Yaml.Node Nat × Yaml.Node Nat) => (yamlText? a e.1).map (·, e.2)).bind
      (ofEntries (yamlReader a))
  | some (some _, _) => none

end BuildMatrix.Settings
