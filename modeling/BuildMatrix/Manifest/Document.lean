import BuildMatrix.Manifest.Error
import BuildMatrix.Text.Sorted
import BuildMatrix.Yaml.Load
import BuildMatrix.Yaml.Merge

/-!
# Manifest documents

A manifest document is a mapping from folders to mappings. Folders that start with a dot only hold
entries for others to merge. After merging, an entry `key+` adds to the list under `key` and an
entry `key-` takes away from it, one after the other in the stored order of the mapping.
-/

namespace BuildMatrix.Manifest

/-! ## Postfix lists -/

/-- What a postfix does to a list. -/
inductive Postfix
  | add
  | remove
  deriving DecidableEq, Repr

/-- The written form of a postfix. -/
def Postfix.render : Postfix → Char
  | add => '+'
  | remove => '-'

/-- The base key and the postfix of a key that has one. -/
def splitPostfix? (key : String) : Option (String × Postfix) :=
  match key.toList.reverse with
  | '+' :: base => some (String.ofList base.reverse, .add)
  | '-' :: base => some (String.ofList base.reverse, .remove)
  | _ => none

/-- The statement of an entry with an `if` key, without its white space. Entries with the same key
replace each other. -/
def ifKey? (entry : Yaml) : Option String :=
  match entry.asMap?.bind (Entries.getText? "if") with
  | none => none
  | some stmt =>
    match stmt.asString? with
    | some s => some (String.ofList (s.toList.filter fun c => !Text.isBlank c))
    | none => some stmt.describe

/-- The text that a scalar of a list is. -/
def scalarText : Yaml → String
  | .string s => s
  | .number n => n.render
  | .bool b => if b then "true" else "false"
  | v => v.describe

/-- A list taken apart: the mappings with an `if` key, the other mappings, and the texts in rising
order. -/
structure Parts where
  conditional : List Yaml := []
  mappings : List Yaml := []
  texts : List String := []

namespace Parts

/-- Adds an entry of the list at the start. -/
def start (p : Parts) (entry : Yaml) : Parts :=
  if (ifKey? entry).isSome then { p with conditional := p.conditional ++ [entry] }
  else if entry.isMap then { p with mappings := p.mappings ++ [entry] }
  else { p with texts := Text.insertSorted (scalarText entry) p.texts }

/-- Applies one entry of a postfix list. -/
def apply (op : Postfix) (p : Parts) (entry : Yaml) : Parts :=
  match ifKey? entry with
  | some key =>
    let others := p.conditional.filter fun e => ifKey? e ≠ some key
    { p with conditional := match op with
        | .add => others ++ [entry]
        | .remove => others }
  | none =>
    if entry.isMap then
      { p with mappings := match op with
          | .add => p.mappings ++ [entry]
          | .remove => p.mappings.filter fun e => !e.equal entry }
    else
      { p with texts := match op with
          | .add => Text.insertSorted (scalarText entry) p.texts
          | .remove => p.texts.filter (· ≠ scalarText entry) }

/-- The list that the parts make up. -/
def toList (p : Parts) : List Yaml :=
  p.conditional ++ p.mappings ++ p.texts.map Yaml.string

end Parts

/-- Applies a postfix list to a list. -/
def applyPostfix (current entries : List Yaml) (op : Postfix) : List Yaml :=
  (entries.foldl (Parts.apply op) (current.foldl Parts.start {})).toList

/-! ## Rules of a document -/

/-- A postfix entry of a mapping. -/
structure PostfixEntry where
  base : String
  op : Postfix
  value : Yaml

/-- The key of a postfix entry as it is written. -/
def PostfixEntry.key (e : PostfixEntry) : String :=
  e.base.push e.op.render

/-- The list that a value is; null is the empty one. -/
def asList (folder key : String) : Yaml → Except ManifestFault (List Yaml)
  | .seq items => .ok items
  | .null => .ok []
  | v => .error (.listExpected key folder v)

/-- The postfix entries of a mapping in their stored order, and the other entries. -/
def splitEntries (es : Entries) : Entries × List PostfixEntry :=
  es.foldl (fun (plain, post) (k, v) =>
    match k.asString?.bind splitPostfix? with
    | some (base, op) => (plain, post ++ [⟨base, op, v⟩])
    | none => (plain.insert k v, post)) ([], [])

/-- Applies a postfix entry. The list of the base key moves to the end of the mapping. -/
def applyEntry (folder : String) (es : Entries) (e : PostfixEntry) :
    Except ManifestFault Entries := do
  let entries ← asList folder e.key e.value
  let current ← match es.getText? e.base with
    | some v => asList folder e.base v
    | none => pure []
  return (es.swapRemove (.string e.base)).insert (.string e.base)
    (.seq (applyPostfix current entries e.op))

/-- Applies the postfix entries of a folder's mapping. -/
def resolvePostfixes (folder : String) (es : Entries) : Except ManifestFault Entries :=
  let (plain, post) := splitEntries es
  post.foldlM (applyEntry folder) plain

/-- The resolved value of a folder. -/
def resolveFolder (folder : String) : Yaml → Except ManifestFault Yaml
  | .map es => (resolvePostfixes folder es).map Yaml.map
  | .null => .ok .null
  | v => .error (.ruleNotMapping folder v)

/-- Resolves the folders of a document one after the other. -/
def resolveFolders (resolved : Entries) : Entries → Except ManifestFault Entries
  | [] => .ok resolved
  | (k, v) :: es =>
    match k.asString? with
    | none => .error (.folderNotText k)
    | some folder =>
      if folder.toList.head? = some '.' then resolveFolders resolved es
      else
        match resolveFolder folder v with
        | .error e => .error e
        | .ok v => resolveFolders (resolved.insert k v) es

/-- The folders of a value with their resolved rules, after its merge keys have been applied. -/
def resolveDocument (v : Yaml) : Except ManifestFault Entries :=
  match v with
  | .null => .ok []
  | .map es => resolveFolders [] es
  | _ => .error .notMapping

/-- Reads the text of a manifest file. -/
def loadDocument (file : Path) (content : String) : Except ManifestError Entries :=
  match (Yaml.parse? content).bind Yaml.applyMerges with
  | none => .error (.yaml file)
  | some v => (resolveDocument v).mapError (ManifestError.invalid file)

end BuildMatrix.Manifest
