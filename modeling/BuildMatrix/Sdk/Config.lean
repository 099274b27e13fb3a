import BuildMatrix.Disk.Basic
import BuildMatrix.Table

/-!
# Configuration files of an app

A configuration file has lines `KEY=value`; a value may be quoted. A line with a hash before its
equals sign says nothing. A file may pin the target that it is written for.
-/

namespace BuildMatrix.Sdk

/-- A value without the quotes around it. -/
def unquote (cs : List Char) : List Char :=
  match cs with
  | '"' :: rest =>
    match rest.reverse with
    | '"' :: inner => inner.reverse
    | _ => cs
  | _ => cs

/-- The key and the value of a line. -/
def readEntry? (line : List Char) : Option (List Char × List Char) :=
  match Text.cutAtFirst '=' (Text.trimChars line) with
  | some (key@(_ :: _), value@(_ :: _)) =>
    if key.contains '#' then none else some (Text.trimChars key, unquote (Text.trimChars value))
  | _ => none

/-- Adds the entry of a line to a table. -/
def addEntry (entries : Table String String) (line : List Char) : Table String String :=
  match readEntry? line with
  | some (key, value) => entries.insert (String.ofList key) (String.ofList value)
  | none => entries

/-- The entries of a text; later ones replace earlier ones. -/
def readConfig (content : String) : Table String String :=
  (Text.linesOf content.toList).foldl addEntry []

/-- The entries of a file; a file that cannot be read has none. -/
def loadConfig (d : Disk) (file : Path) : Table String String :=
  match d.readText file with
  | .ok content => readConfig content
  | .error _ => []

/-- The key that pins a target. -/
def targetKey : String := "CONFIG_IDF_TARGET"

/-- The target that some files pin; the last one counts. -/
def pinnedTarget (d : Disk) (files : List Path) : Option String :=
  (files.filterMap fun file => Table.get? targetKey (loadConfig d file)).getLast?

end BuildMatrix.Sdk
