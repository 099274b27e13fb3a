import BuildMatrix.Manifest.Clause
import BuildMatrix.Yaml.Basic

/-!
# Dependency lists

What a folder depends on is a list of texts, or a switch: cases with a condition each and a list
for when none of them holds.
-/

namespace BuildMatrix

/-- A case of a switch. -/
structure SwitchCase where
  clause : Clause
  content : List String
  deriving DecidableEq, Repr

/-- A list of dependencies, fixed or chosen by conditions. -/
inductive Dependency
  | flat (items : List String)
  | switch (cases : List SwitchCase) (default : List String)
  deriving DecidableEq, Repr

/-- Why a list in a manifest is no list of dependencies. -/
inductive DependencyError
  | mixed (key : String)
  | notText (key : String) (item : Yaml)
  | keyNotText (key : String)
  | conditionNotText (key : String)
  | clause (e : ClauseError)
  | unknownKeys (key : String) (keys : List String)
  | contentItem (key : String) (item : Yaml)
  | contentNotList (key : String) (value : Yaml)
  deriving Repr

/-- The message of an error. -/
def DependencyError.message : DependencyError → String
  | mixed key => "\"" ++ key ++ "\" mixes strings and switch clauses, use either a list of " ++
      "strings or a list of if/content mappings"
  | notText key item => "\"" ++ key ++ "\" entries must be strings, got " ++ item.describe
  | keyNotText key => "\"" ++ key ++ "\" switch clause keys must be strings"
  | conditionNotText key => "\"" ++ key ++ "\" switch \"if\" must be a string"
  | clause e => e.message
  | unknownKeys key keys => "\"" ++ key ++ "\" switch clause has unknown keys " ++
      Text.quotedList keys ++ ", only \"if\"/\"content\" or \"default\" are allowed"
  | contentItem key item => "\"" ++ key ++ "\" content must be strings, got " ++ item.describe
  | contentNotList key value => "\"" ++ key ++ "\" content must be a list, got " ++ value.describe

namespace Dependency

/-- No dependencies. -/
def none : Dependency :=
  flat []

/-- Whether there is something to resolve; a switch counts even if its lists are empty. -/
def isDeclared : Dependency → Bool
  | flat items => !items.isEmpty
  | switch .. => true

/-- The content of the first case whose condition holds, or the default. -/
def resolveCases (ctx : Context) (default : List String) :
    List SwitchCase → Except EvalError (List String)
  | [] => .ok default
  | c :: cs =>
    match c.clause.holds ctx with
    | .error e => .error e
    | .ok true => .ok c.content
    | .ok false => resolveCases ctx default cs

/-- The dependencies in a context. -/
def resolve (ctx : Context) : Dependency → Except EvalError (List String)
  | flat items => .ok items
  | switch cases default => resolveCases ctx default cases

/-- The list as it enters the digest of a rule. -/
def canonical : Dependency → JsonValue
  | flat items => .texts items
  | switch cases default =>
    .arr (cases.map (fun c => .obj [("content", .texts c.content), ("if", c.clause.canonical)]) ++
      [.obj [("default", .texts default)]])

/-! ## Reading -/

/-- The text of an item of a plain list. -/
def readItem (key : String) : Yaml → Except DependencyError String
  | .string s => .ok s
  | .number n => .ok n.render
  | v => .error (.notText key v)

/-- The list of texts in a case of a switch; a single text stands for a list of one. -/
def readContent (key : String) : Yaml → Except DependencyError (List String)
  | .null => .ok []
  | .string s => .ok [s]
  | .seq items => items.mapM fun v =>
    match v.asString? with
    | some s => .ok s
    | Option.none => .error (.contentItem key v)
  | v => .error (.contentNotList key v)

/-- Reads the entries of one mapping of a switch into the cases and the default so far. -/
def readCase (key : String) (cases : List SwitchCase) (default : List String) (es : Entries) :
    Except DependencyError (List SwitchCase × List String) := do
  let keys := es.filterMap fun e => e.1.asString?
  if keys.length ≠ es.length then throw (.keyNotText key)
  if keys = ["default"] then
    return (cases, ← readContent key ((es.getText? "default").getD .null))
  else if keys.contains "if" && keys.all fun k => k == "if" || k == "content" then
    match ((es.getText? "if").getD .null).asString? with
    | Option.none => throw (.conditionNotText key)
    | some stmt =>
      let clause ← (Clause.make stmt false Option.none).mapError DependencyError.clause
      let content ← match es.getText? "content" with
        | some v => readContent key v
        | Option.none => pure []
      return (cases ++ [⟨clause, content⟩], default)
  else throw (.unknownKeys key keys)

/-- Reads the mappings of a switch; of several defaults the last one counts. -/
def readCases (key : String) :
    List SwitchCase → List String → List Yaml → Except DependencyError Dependency
  | cases, default, [] => .ok (switch cases default)
  | cases, default, v :: vs =>
    match v.asMap? with
    | Option.none => readCases key cases default vs
    | some es => do
      let (cases, default) ← readCase key cases default es
      readCases key cases default vs

/-- Reads the list of a manifest key: all texts, or all mappings of a switch. -/
def ofYaml (key : String) (items : List Yaml) : Except DependencyError Dependency :=
  if items.any Yaml.isMap then
    if items.all Yaml.isMap then readCases key [] [] items else .error (.mixed key)
  else (items.mapM (readItem key)).map flat

end Dependency

end BuildMatrix
