import BuildMatrix.Disk.Basic

/-!
# Config rules

A config rule `FILE=NAME` maps files of configurations to config names. A name that is left out is
taken from the part of the file's name that a star stands for. A rule without a file gives the name of
the configuration that apps without such files have.
-/

namespace BuildMatrix

/-- A pattern of files with the name of their configuration. -/
structure ConfigRule where
  /-- The pattern, relative to the app's folder; empty for apps without files that match. -/
  pattern : String
  configName : String
  deriving DecidableEq, Repr

namespace ConfigRule

/-- Reads a rule. -/
def read (rule : String) : ConfigRule :=
  match Text.cutAtFirst '=' rule.toList with
  | some (file, name) => ⟨String.ofList (Text.trimChars file), String.ofList (Text.trimChars name)⟩
  | none => ⟨Text.trim rule, ""⟩

/-- A text without `start` at its start, if it is there. -/
def dropStart (start cs : List Char) : List Char :=
  if start.isPrefixOf cs then cs.drop start.length else cs

/-- A text without `tail` at its end, if it is there. -/
def dropTail (tail cs : List Char) : List Char :=
  if tail.isSuffixOf cs then cs.take (cs.length - tail.length) else cs

/-- The config name of a file that matches, given by its path relative to the app's folder. -/
def nameFor (r : ConfigRule) (file : String) : String :=
  if !r.configName.isEmpty then r.configName
  else
    match Text.cutAtFirst '*' r.pattern.toList with
    | some (before, after) => String.ofList (dropTail after (dropStart before file.toList))
    | none => ""

end ConfigRule

end BuildMatrix
