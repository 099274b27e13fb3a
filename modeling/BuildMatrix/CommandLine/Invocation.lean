import BuildMatrix.CommandLine.Reading
import BuildMatrix.Settings.Basic

/-!
# Invocations

An invocation is a command with its options and with the options that all commands share, which may
stand before or after the command; what stands after it wins. Two options may also be given by
variables of the process.
-/

namespace BuildMatrix.CommandLine

/-! ## Options -/

/-- The options of every command that say something about the program. -/
def aboutOptions : List OptionSpec :=
  [⟨"help", some 'h', .flag⟩, ⟨"version", some 'V', .flag⟩]

/-- The options that all commands share. -/
def sharedOptions : List OptionSpec := [
  ⟨"verbose", some 'v', .counter⟩,
  ⟨"quiet", some 'q', .flag⟩,
  ⟨"format", none, .single (.choice ["text", "json"])⟩,
  ⟨"directory", some 'C', .single .path⟩,
  ⟨"log-file", none, .single .path⟩] ++ aboutOptions

/-- The options that select apps. -/
def selectionOptions : List OptionSpec := [
  ⟨"config-file", none, .single .path⟩,
  ⟨"paths", some 'p', .several .path 1 none⟩,
  ⟨"target", some 't', .single .text⟩,
  ⟨"recursive", none, .flag⟩,
  ⟨"exclude", none, .several .path 1 none⟩,
  ⟨"work-dir", none, .single .path⟩,
  ⟨"build-dir", none, .single .text⟩,
  ⟨"build-log", none, .single .text⟩,
  ⟨"config-rules", none, .several .text 1 none⟩,
  ⟨"manifest-files", none, .several .path 1 none⟩,
  ⟨"manifest-rootpath", none, .single .path⟩,
  ⟨"check-manifest-rules", none, .flag⟩,
  ⟨"default-build-targets", none, .several .text 1 (some ';')⟩,
  ⟨"enable-preview-targets", none, .flag⟩,
  ⟨"modified-components", none, .several .text 0 (some ';')⟩,
  ⟨"modified-files", none, .several .path 0 (some ';')⟩,
  ⟨"deactivate-dependency-driven-build-by-components", none, .several .text 1 (some ';')⟩,
  ⟨"deactivate-dependency-driven-build-by-filepatterns", none, .several .text 1 (some ';')⟩,
  ⟨"compare-manifest-sha-filepath", none, .single .path⟩,
  ⟨"include-skipped-apps", none, .flag⟩,
  ⟨"include-disabled-apps", none, .flag⟩,
  ⟨"include-all-apps", none, .flag⟩,
  ⟨"idf-path", none, .single .path⟩]

/-- The option that names a file for the output. -/
def outputOption : OptionSpec :=
  ⟨"output", some 'o', .single .path⟩

/-- The options that are only for finding apps. -/
def findOptions : List OptionSpec :=
  [outputOption, ⟨"output-format", none, .single (.choice ["raw", "json"])⟩]

/-- The options that are only for building apps. -/
def buildOptions : List OptionSpec := [
  ⟨"parallel-count", none, .single .number⟩,
  ⟨"parallel-index", none, .single .number⟩,
  ⟨"keep-going", none, .flag⟩,
  ⟨"dry-run", none, .flag⟩,
  ⟨"check-warnings", none, .flag⟩,
  ⟨"ignore-warning-str", none, .several .text 1 none⟩,
  ⟨"collect-app-info", none, .single .path⟩,
  ⟨"python", none, .single .text⟩]

/-- The options for writing a snapshot of manifests. -/
def snapshotOptions : List OptionSpec := [
  ⟨"manifest-files", none, .several .path 1 none⟩,
  ⟨"manifest-rootpath", none, .single .path⟩,
  outputOption,
  ⟨"check-manifest-rules", none, .flag⟩]

/-- A command. -/
inductive CommandName
  | find
  | build
  | dumpManifestSha
  | completions
  deriving DecidableEq, Repr

namespace CommandName

/-- All commands. -/
def all : List CommandName :=
  [find, build, dumpManifestSha, completions]

/-- The word for a command. -/
def word : CommandName → String
  | find => "find"
  | build => "build"
  | dumpManifestSha => "dump-manifest-sha"
  | completions => "completions"

/-- The command that a word stands for. -/
def ofWord? (s : String) : Option CommandName :=
  all.find? (·.word = s)

/-- The shells that completions are written for. -/
def shells : List String :=
  ["bash", "elvish", "fish", "powershell", "zsh"]

/-- What may be given after a command. -/
def level : CommandName → Level
  | find => { options := selectionOptions ++ findOptions ++ sharedOptions }
  | build => { options := selectionOptions ++ buildOptions ++ sharedOptions }
  | dumpManifestSha => { options := snapshotOptions ++ sharedOptions }
  | completions =>
    { options := outputOption :: sharedOptions, word := some (.choice shells) }

/-- Whether a command selects apps. -/
def selectsApps : CommandName → Bool
  | find | build => true
  | dumpManifestSha | completions => false

/-- Whether all that a command needs was given. -/
def isComplete (c : CommandName) (r : Reading) : Bool :=
  match c with
  | find | build => true
  | dumpManifestSha => r.has "manifest-files" && r.has "output"
  | completions => !r.words.isEmpty

end CommandName

/-- What may be given before a command. -/
def topLevel : Level :=
  { options := sharedOptions, commands := "help" :: CommandName.all.map CommandName.word }

/-! ## Reading -/

/-- The variable that names the file for logs. -/
def logVariable : String := "FIRMBUILD_LOG_FILE"

/-- A command with what it was given. -/
structure Invocation where
  command : CommandName
  options : Reading
  isQuiet : Bool
  isJson : Bool
  folder : Option Path
  logFile : Option Path
  deriving Repr

/-- What is to be done: a command, or telling about the program or a command. -/
inductive Wish
  | perform (i : Invocation)
  | tellVersion (command : Option CommandName)
  | tellHelp
  deriving Repr

/-- Whether a variable gives an option a value that it cannot have. -/
def isSpoilt (vars : Table String String) (name : String) (isGiven : Bool) : Bool :=
  !isGiven && Table.get? name vars = some ""

/-- The invocation that the options before and after a command make up, if nothing is missing. -/
def assemble (vars : Table String String) (command : CommandName) (before after : Reading) :
    Option Invocation :=
  let shared (name : String) := (after.value? name).orElse fun _ => before.value? name
  if !command.isComplete after then none
  else if command.selectsApps &&
      isSpoilt vars Settings.sdkVariable (after.has "idf-path") then none
  else if isSpoilt vars logVariable (before.has "log-file" && after.has "log-file") then none
  else some {
    command
    options := after
    isQuiet := after.has "quiet" || before.has "quiet"
    isJson := shared "format" = some "json"
    folder := (shared "directory").map Path.mk
    logFile := ((shared "log-file").orElse fun _ => Table.get? logVariable vars).map Path.mk }

/-- Reads what is after a command. -/
def readAfter (vars : Table String String) (before : Reading) (command : CommandName)
    (rest : List String) : Except Stop Wish :=
  match Reading.read command.level false {} rest >>= fun r => r.1.settle with
  | .error .version => .ok (.tellVersion (some command))
  | .error e => .error e
  | .ok after => do
    let before ← before.settle
    match assemble vars command before after with
    | some i => return .perform i
    | none => throw .usage

/-- Reads the arguments of the program. -/
def readArguments (vars : Table String String) (args : List String) : Except Stop Wish := do
  match ← Reading.read topLevel false {} args with
  | (_, none) => throw .usage
  | (before, some (word, rest)) =>
    match CommandName.ofWord? word with
    | some command => readAfter vars before command rest
    | none =>
      if rest.isEmpty then throw .help
      else if rest.length = 1 && rest.all fun s => (topLevel.commands.contains s) then throw .help
      else throw .usage

/-- What the arguments of the program ask for. -/
def wishOf (vars : Table String String) (args : List String) : Except Stop Wish :=
  match readArguments vars args with
  | .error .version => .ok (.tellVersion none)
  | .error .help => .ok .tellHelp
  | r => r

end BuildMatrix.CommandLine
