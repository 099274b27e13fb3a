import BuildMatrix.Environment
import BuildMatrix.Sdk.Define
import BuildMatrix.Search.Walk

/-!
# The SDK

A checkout of the SDK tells its version, the known targets and the capability constants of each
target. What cannot be found is replaced by what is built in, or left out.
-/

namespace BuildMatrix.Sdk

/-- Why a checkout cannot be read. -/
inductive Error
  | invalidPath (root : Path)
  | versionNotFound (file : Path)
  | disk (e : DiskError)
  deriving DecidableEq, Repr

/-- The message of an error. -/
def Error.message : Error → String
  | invalidPath root => "Invalid value for IDF_PATH: " ++ root.text
  | versionNotFound file => "Cannot find SDK version in " ++ file.text
  | disk e => "IO error: " ++ e.message

/-- The path with some names appended. -/
def below (p : Path) (names : List String) : Path :=
  names.foldl Path.child p

/-! ## Targets -/

/-- Whether a character is a quote of a name in a list. -/
def isQuote (c : Char) : Bool :=
  c == '\'' || c == '"'

/-- The name that an item of a list quotes. -/
def listItem (cs : List Char) : List Char :=
  Text.dropEndWhile isQuote ((Text.trimChars cs).dropWhile isQuote)

/-- The names in the text between the brackets of a list; empty ones are left out. -/
def listItems (cs : List Char) : List String :=
  ((Text.piecesOf ',' cs).map listItem).filterMap fun
    | [] => none
    | name => some (String.ofList name)

/-- The text between the brackets, if a text begins with a list named `name`. -/
def listAt? (name : String) (cs : List Char) : Option (List Char) := do
  let cs ← after? name cs
  let cs ← after? "=" (cs.dropWhile Text.isBlank)
  let cs ← after? "[" (cs.dropWhile Text.isBlank)
  (Text.cutAtFirst ']' cs).map Prod.fst

/-- The text between the brackets of the first list named `name` that begins a line. The flag says
whether the text begins a line. -/
def findList? (name : String) : Bool → List Char → Option (List Char)
  | _, [] => none
  | startsLine, c :: cs =>
    match (if startsLine then listAt? name (c :: cs) else none) with
    | some items => some items
    | none => findList? name (c == '\n') cs

/-- The names in the list named `name`. -/
def readList? (name content : String) : Option (List String) :=
  (findList? name true content.toList).map listItems

/-- The targets that a checkout knows. -/
def loadTargets (d : Disk) (root : Path) : Targets :=
  match d.readText (below root ["tools", "idf_py_actions", "constants.py"]) with
  | .error _ => .builtin
  | .ok content => {
      supported := (readList? "SUPPORTED_TARGETS" content).getD Targets.builtin.supported
      preview := (readList? "PREVIEW_TARGETS" content).getD Targets.builtin.preview }

/-! ## Version -/

/-- Whether a character is a digit of some script. -/
def isDigit (c : Char) : Bool :=
  Text.isDigitCode c.toNat

/-- The part of the version that a line sets, and its number. -/
def versionPart? (line : List Char) : Option (String × Nat) := do
  let cs ← after? "set" (line.dropWhile Text.isBlank)
  let cs ← after? "(" (cs.dropWhile Text.isBlank)
  let cs ← after? "IDF_VERSION_" (cs.dropWhile Text.isBlank)
  let part := cs.take 5
  if part.length ≠ 5 || !part.all Char.isUpper then none
  else
    let cs ← afterBlanks? (cs.drop 5)
    let number ← Text.readNat 10 (cs.takeWhile isDigit)
    if number < Text.unsignedBound then some (String.ofList part, number) else none

/-- The parts of the version that a text sets; later lines replace earlier ones. -/
def versionParts (content : String) : Table String Nat :=
  ((Text.linesOf content.toList).filterMap versionPart?).foldl
    (fun parts (part, n) => Table.insert part n parts) []

/-- The version that a text sets. -/
def readVersion? (content : String) : Option Version := do
  let parts := versionParts content
  let major ← Table.get? "MAJOR" parts
  let minor ← Table.get? "MINOR" parts
  let patch ← Table.get? "PATCH" parts
  return ⟨major, minor, patch, [], []⟩

/-- The version of a checkout. -/
def loadVersion (d : Disk) (root : Path) : Except Error Version :=
  let file := below root ["tools", "cmake", "version.cmake"]
  if !d.isFile file then .error (.versionNotFound file)
  else
    match d.readText file with
    | .error e => .error (.disk e)
    | .ok content =>
      match readVersion? content with
      | some v => .ok v
      | none => .error (.versionNotFound file)

/-! ## Capabilities -/

/-- The constants that a header defines, added to a table. -/
def addDefines (constants : Table String Value) (content : String) : Table String Value :=
  ((Text.lines content).filterMap parseDefine).foldl
    (fun constants (name, v) => constants.insert name v) constants

/-- The constants in the headers of a folder. Headers that cannot be read are passed over. -/
def loadConstants (d : Disk) (folder : Path) : Table String Value :=
  if !d.isFolder folder then []
  else
    match Search.run d (folder.child "*_caps.h").text with
    | .error _ => []
    | .ok headers =>
      (headers.filterMap fun header => (d.readText header).toOption).foldl addDefines []

/-- The constants of some targets. The host is no target with constants. -/
def loadCapabilities (d : Disk) (root : Path) (targets : List String) : Capabilities :=
  (targets.filter (· ≠ "linux")).foldl (fun c target =>
    Table.insert target
      (loadConstants d (below root ["components", "soc", target, "include", "soc"])) c) []

/-- The environment that a checkout makes up. -/
def loadEnvironment (d : Disk) (root : Path) : Except Error Environment :=
  if !d.isFolder root then .error (.invalidPath root)
  else
    let targets := loadTargets d root
    .ok { Environment.ofTargets targets with
      version := (loadVersion d root).toOption
      capabilities := loadCapabilities d root targets.all }

end BuildMatrix.Sdk
