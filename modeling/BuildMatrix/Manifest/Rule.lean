import BuildMatrix.Digest.Sha512
import BuildMatrix.Manifest.Error

/-!
# Rules

A rule says for which targets the apps of a folder are built and tested, and what they depend on.
Without an `enable` clause an app is built for the default targets. The digest of a rule covers its
clauses and dependencies, but neither its folder nor the file it comes from.
-/

namespace BuildMatrix

/-- The policy of a folder. -/
structure Rule where
  folder : Path
  enable : List Clause := []
  disable : List Clause := []
  disableTest : List Clause := []
  components : Dependency := .none
  filePatterns : Dependency := .none
  /-- The manifest file that declares the rule. -/
  file : Option Path := none
  deriving DecidableEq, Repr

namespace Rule

/-- The rule of a folder that no manifest speaks of. -/
def default (folder : Path) : Rule where
  folder := folder

/-- Whether a rule says nothing and comes from no manifest. -/
def isDefault (r : Rule) : Bool :=
  r.file.isNone && r.enable.isEmpty && r.disable.isEmpty && r.disableTest.isEmpty &&
    !r.components.isDeclared && !r.filePatterns.isDeclared

/-! ## Digest -/

/-- The content of a rule, with the members in the order of their names. -/
def canonical (r : Rule) : JsonValue :=
  .obj [
    ("depends_components", r.components.canonical),
    ("depends_filepatterns", r.filePatterns.canonical),
    ("disable", .arr (r.disable.map Clause.canonical)),
    ("disable_test", .arr (r.disableTest.map Clause.canonical)),
    ("enable", .arr (r.enable.map Clause.canonical))]

/-- The text that the digest covers. -/
def canonicalText (r : Rule) : String :=
  r.canonical.compact

/-- The digest of a rule. -/
def sha (r : Rule) : String :=
  Sha512.hexDigest r.canonicalText

/-! ## Targets -/

/-- Whether the rule enables a build, before disabling clauses. -/
def isEnabled (r : Rule) (ctx : Context) : Except EvalError Bool :=
  if r.enable.isEmpty then .ok (ctx.env.isDefault ctx.target)
  else (Clause.firstMatch ctx r.enable).map Option.isSome

/-- Whether the rule builds for the target of a context. Disabling clauses are looked at only for
an enabled target. -/
def builds (r : Rule) (ctx : Context) : Except EvalError Bool :=
  match r.isEnabled ctx with
  | .error e => .error e
  | .ok false => .ok false
  | .ok true => (Clause.firstMatch ctx r.disable).map Option.isNone

/-- The targets, in order, for which a test holds. -/
def selectTargets (test : String → Except EvalError Bool) :
    List String → Except EvalError (List String)
  | [] => .ok []
  | t :: ts =>
    match test t with
    | .error e => .error e
    | .ok keep =>
      match selectTargets test ts with
      | .error e => .error e
      | .ok rest => .ok (if keep then t :: rest else rest)

/-- The sorted targets that the rule builds for. A pinned target leaves only itself, if it is among
them. -/
def buildTargets (r : Rule) (env : Environment) (pinned : Option String) (configName : String) :
    Except EvalError (List String) :=
  match selectTargets (fun t => r.builds ⟨env, t, configName⟩) env.allTargets with
  | .error e => .error e
  | .ok targets =>
    match pinned with
    | some t => .ok (if targets.contains t then [t] else [])
    | none => .ok (targets.mergeSort fun a b => a ≤ b)

/-- The targets that the rule tests on, among those that it builds for. -/
def testTargets (r : Rule) (env : Environment) (pinned : Option String) (configName : String) :
    Except EvalError (List String) :=
  match r.buildTargets env pinned configName with
  | .error e => .error e
  | .ok targets =>
    selectTargets (fun t =>
      (Clause.firstMatch ⟨env, t, configName⟩ (r.disable ++ r.disableTest)).map Option.isNone)
      targets

/-! ## Reasons -/

/-- The reason that a disabling clause gives. -/
def disabledBy (c : Clause) : String :=
  "Disabled by manifest rule: " ++ c.render

/-- Why the rule does not build for the target of a context, if it does not. -/
def buildDisableReason (r : Rule) (ctx : Context) : Except EvalError (Option String) :=
  match Clause.firstMatch ctx r.disable with
  | .error e => .error e
  | .ok (some c) => .ok (some (disabledBy c))
  | .ok none =>
    if r.enable.isEmpty then
      if ctx.env.isDefault ctx.target then .ok none
      else .ok (some ("Target " ++ ctx.target ++ " not in default build targets " ++
        Text.joinWith "," ctx.env.defaults))
    else
      match Clause.firstMatch ctx r.enable with
      | .error e => .error e
      | .ok (some _) => .ok none
      | .ok none => .ok (some ("Not enabled by manifest rules:\n" ++
        Text.joinWith "\n" (r.enable.map fun c => "- " ++ c.stmt)))

/-- Why the rule does not test on the target of a context, if it does not. -/
def testDisableReason (r : Rule) (ctx : Context) : Except EvalError (Option String) :=
  match r.buildDisableReason ctx with
  | .error e => .error e
  | .ok (some reason) => .ok (some reason)
  | .ok none => (Clause.firstMatch ctx r.disableTest).map fun c => c.map disabledBy

/-! ## Reading -/

/-- The keys of a rule. -/
def keys : List String :=
  ["enable", "disable", "disable_test", "depends_components", "depends_filepatterns"]

/-- The list under a key; an absent one is empty. -/
def listOf (es : Entries) (key : String) : Except ManifestFault (List Yaml) :=
  match es.getText? key with
  | none | some .null => .ok []
  | some (.seq items) => .ok items
  | some v => .error (.ruleListExpected key v)

/-- What the entries of a clause say. -/
structure ClauseParts where
  stmt : Option String := none
  temporary : Bool := false
  reason : Option String := none

/-- Takes one entry of a clause into account. -/
def addClauseEntry (key : String) (parts : ClauseParts) (e : Yaml × Yaml) :
    Except ManifestFault ClauseParts :=
  match e.1.asString?, e.2 with
  | some "if", .string s => .ok { parts with stmt := some s }
  | some "temporary", .bool b => .ok { parts with temporary := b }
  | some "reason", .string s => .ok { parts with reason := some s }
  | some "reason", .null => .ok parts
  | _, _ => .error (.clauseEntry key e.1 e.2)

/-- Reads a clause of the list under a key. -/
def readClause (key : String) (entry : Yaml) : Except ManifestFault Clause := do
  match entry.asMap? with
  | none => throw (.clauseNotMapping key entry)
  | some es =>
    let parts ← es.foldlM (addClauseEntry key) {}
    match parts.stmt with
    | none => throw (.missingCondition key)
    | some stmt => (Clause.make stmt parts.temporary parts.reason).mapError ManifestFault.clause

/-- Reads the clauses under a key. -/
def readClauses (es : Entries) (key : String) : Except ManifestFault (List Clause) := do
  (← listOf es key).mapM (readClause key)

/-- Reads the dependencies under a key. -/
def readDependency (es : Entries) (key : String) : Except ManifestFault Dependency := do
  (Dependency.ofYaml key (← listOf es key)).mapError ManifestFault.dependency

/-- Reads the entries of a rule. Unknown keys are found first, then the keys are read in the order
of `keys`. -/
def readEntries (folder file : Path) (es : Entries) : Except ManifestFault Rule := do
  match es.find? fun e => !(e.1.asString?.any keys.contains) with
  | some e => throw (.unknownKey e.1 folder)
  | none =>
    let enable ← readClauses es "enable"
    let disable ← readClauses es "disable"
    let disableTest ← readClauses es "disable_test"
    let components ← readDependency es "depends_components"
    let filePatterns ← readDependency es "depends_filepatterns"
    return ⟨folder, enable, disable, disableTest, components, filePatterns, some file⟩

/-- Reads the rule of a folder; a folder without entries has one that says nothing. -/
def ofYaml (folder : Path) (es : Option Entries) (file : Path) : Except ManifestError Rule :=
  (readEntries folder file (es.getD [])).mapError (ManifestError.invalid file)

end Rule

end BuildMatrix
