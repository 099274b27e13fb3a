import BuildMatrix.Glob.Match
import BuildMatrix.Manifest.Rule
import BuildMatrix.Text.Sorted

/-!
# The gate

When it is known what a revision changes, apps that do not depend on a change need no build. The
gate knows the changed components, files and manifest folders, as far as they are given, and decides for
each app: build it, skip it, or leave the question to the build itself.
-/

namespace BuildMatrix

/-- Why options do not go together. -/
inductive OptionError
  | componentsMissing
  | filesMissing
  | warningPattern (pattern : String)
  deriving DecidableEq, Repr

/-- The message of an error; what is wrong with a pattern is said no further. -/
def OptionError.message : OptionError → String
  | componentsMissing => "Invalid command: Must specify " ++
      "--deactivate-dependency-driven-build-by-components together with --modified-components"
  | filesMissing => "Invalid command: Must specify " ++
      "--deactivate-dependency-driven-build-by-filepatterns together with --modified-files"
  | warningPattern pattern =>
    "Invalid command: Invalid ignore warning regex " ++ pattern ++ ": regex parse error:"

/-- What changed, as far as it is known. Components are in strictly rising order; files are
absolute. -/
structure Gate where
  root : Path
  components : Option (List String) := none
  files : Option (List Path) := none
  /-- Components whose change makes every app be built. -/
  deactivatingComponents : Option (List String) := none
  /-- Patterns of files whose change makes every app be built. -/
  deactivatingPatterns : Option (List String) := none
  manifestFolders : Option (List Path) := none
  deriving Repr

/-- What happens to an app. -/
inductive Decision
  | build (reason : String)
  | skip (reason : String)
  | defer
  deriving DecidableEq, Repr

namespace Decision

/-- The reason for a decision. -/
def reason? : Decision → Option String
  | build r => some r
  | skip r => some r
  | defer => none

end Decision

namespace Gate

/-- The gate that knows of no changes. -/
def idle : Gate where
  root := .empty

/-- The gate for some changes. Files are relative to `root`. What deactivates the gate needs the
changes that it is compared with. -/
def make (root : Path) (components : Option (List String)) (files : Option (List Path))
    (deactivatingComponents deactivatingPatterns : Option (List String)) :
    Except OptionError Gate :=
  if deactivatingComponents.isSome && components.isNone then .error .componentsMissing
  else if deactivatingPatterns.isSome && files.isNone then .error .filesMissing
  else .ok {
    root, deactivatingComponents, deactivatingPatterns
    components := components.map Text.sortUnique
    files := files.map fun fs => fs.map (Path.absolutize · root) }

/-- The gate with the folders whose rules changed. -/
def withManifestFolders (g : Gate) (folders : List Path) : Gate :=
  { g with manifestFolders := some folders }

/-- Whether a changed component deactivates the gate. -/
def isDeactivatedByComponent (g : Gate) : Bool :=
  match g.deactivatingComponents, g.components with
  | some names, some changed => names.any changed.contains
  | _, _ => false

/-- Whether a changed file deactivates the gate. -/
def isDeactivatedByFile (g : Gate) : Bool :=
  match g.deactivatingPatterns, g.files with
  | some patterns, some files => Glob.filesMatch files patterns g.root
  | _, _ => false

/-- Whether the gate applies at all. -/
def isEnabled (g : Gate) : Bool :=
  (g.components.isSome || g.files.isSome) && !g.isDeactivatedByComponent &&
    !g.isDeactivatedByFile

/-- Whether a changed file lies in a folder. -/
def touches (g : Gate) (folder : Path) : Bool :=
  (g.files.getD []).any fun f => f.isWithin folder

/-- Whether the rule of a folder changed. -/
def changesRuleOf (g : Gate) (folder : Path) : Bool :=
  (g.manifestFolders.getD []).any fun f => f.same folder

/-- The changed ones among some components. -/
def changedAmong (g : Gate) (components : List String) : List String :=
  components.filter (g.components.getD []).contains

/-- Whether a changed file matches one of some patterns. -/
def changesFilesOf (g : Gate) (patterns : List String) : Bool :=
  match g.files with
  | some files => Glob.filesMatch files patterns g.root
  | none => false

/-- Whether it is known if one of some components changed. -/
def knowsComponents (g : Gate) (components : List String) : Bool :=
  !components.isEmpty && g.components.isSome

/-- Whether it is known if a file that matches one of some patterns changed. -/
def knowsFiles (g : Gate) (patterns : List String) : Bool :=
  !patterns.isEmpty && g.files.isSome

/-- Decides by what an app depends on. -/
def decideByDependencies (g : Gate) (components patterns : List String) : Decision :=
  if g.components.any List.isEmpty && patterns.isEmpty then
    .skip "current build does not modify any components"
  else if !g.knowsComponents components && !g.knowsFiles patterns then .defer
  else if !(g.changedAmong components).isEmpty then
    .build ("Requires components: " ++ ", ".intercalate (g.changedAmong components))
  else if g.changesFilesOf patterns then
    .build ("Requires file patterns: " ++ ", ".intercalate patterns)
  else .skip "current build does not modify any components or files required by this app"

/-- Decides about the app in a folder that a rule governs. -/
def decide (g : Gate) (rule : Rule) (app : Path) (ctx : Context) : Except EvalError Decision :=
  if !g.isEnabled then .ok (.build "dependency-driven build feature is disabled")
  else if g.touches (app.absolutize g.root) then
    .ok (.build "current build modifies the app itself")
  else if g.changesRuleOf rule.folder then
    .ok (.build "current build modifies the related manifest rules")
  else
    match rule.components.resolve ctx, rule.filePatterns.resolve ctx with
    | .error e, _ => .error e
    | _, .error e => .error e
    | .ok components, .ok patterns => .ok (g.decideByDependencies components patterns)

end Gate

end BuildMatrix
