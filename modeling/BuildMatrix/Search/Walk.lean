import BuildMatrix.Disk.Basic
import BuildMatrix.Search.Pattern

/-!
# Searching the disk

A search follows a pattern name by name from the root or from the current folder. Names without
wildcards are looked up as they are; for the others the children of a folder are tried in the order
of their names.
-/

namespace BuildMatrix.Search

/-- A name of a search pattern. -/
inductive Part
  | name (s : String)
  | wild (ts : List Token)
  | folders
  deriving Repr

/-- A search pattern taken apart. -/
structure Plan where
  isAbsolute : Bool
  parts : List Part
  /-- Whether only folders are looked for. -/
  foldersOnly : Bool
  deriving Repr

/-- The part of a pattern that a name is. -/
def readPart (cs : List Char) : Except PatternError Part :=
  match read cs with
  | .error e => .error e
  | .ok [.folders] => .ok .folders
  | .ok ts =>
    match literalText? ts with
    | some s => .ok (.name s)
    | none => .ok (.wild ts)

/-- The pieces of a text between slashes, without an empty piece at the end. -/
def splitNames (cs : List Char) : List (List Char) :=
  let pieces := Text.piecesOf '/' cs
  if pieces.getLast? = some [] then pieces.dropLast else pieces

/-- Reads a pattern: as a whole first, then name by name. -/
def readPlan (pattern : String) : Except PatternError Plan := do
  let cs := pattern.toList
  let _ ← read cs
  let isAbsolute := cs.head? == some '/'
  let body := if isAbsolute then cs.tail else cs
  let parts ← (splitNames body).mapM readPart
  return ⟨isAbsolute, if body.isEmpty then parts ++ [.name ""] else parts,
    cs.getLast? == some '/'⟩

/-- A child of a folder; the current folder is left out of paths. -/
def childOf (p : Path) (name : String) : Path :=
  if p.same ⟨"."⟩ then ⟨name⟩ else p.child name

mutual

/-- Applies `f` to everything below a tree, each folder before what it holds. -/
def everythingBelow (f : Path → FileTree → List Path) (p : Path) : FileTree → List Path
  | .file _ => []
  | .folder children => everythingIn f p children

/-- Applies `f` to some children of a folder and to everything below them. -/
def everythingIn (f : Path → FileTree → List Path) (p : Path) :
    List (String × FileTree) → List Path
  | [] => []
  | (name, t) :: rest =>
    f (childOf p name) t ++ everythingBelow f (childOf p name) t ++ everythingIn f p rest

end

/-- What is found once all names have matched. -/
def found (foldersOnly : Bool) (p : Path) (isFolder : Bool) : List Path :=
  if foldersOnly && !isFolder then [] else [p]

/-- The special names of a folder that match; only names with a dot in front can. -/
def specialNames (ts : List Token) : List String :=
  if ts.head? = some (.literal '.') then ["..", "."].filter (nameMatches ts) else []

/-- Whether the name at the end of a path matches. -/
def endMatches (ts : List Token) (p : Path) : Bool :=
  p.fileName?.any (nameMatches ts)

/-- Whether a name without wildcards leads anywhere. -/
def leadsOn (d : Disk) (p next : Path) (s : String) : Bool :=
  if s = "." || s = ".." then d.isFolder p else d.pathExists next

/-- Follows the parts of a pattern from a path. -/
def follow (d : Disk) (foldersOnly : Bool) : List Part → Path → List Path
  | [], _ => []
  | .name s :: rest, p =>
    let next := childOf p s
    if !leadsOn d p next s then []
    else if rest.isEmpty then found foldersOnly next (d.isFolder next)
    else follow d foldersOnly rest next
  | .wild ts :: rest, p =>
    match d.find p with
    | .ok (.folder children) =>
      let go (next : Path) (isFolder : Bool) : List Path :=
        if rest.isEmpty then found foldersOnly next isFolder else follow d foldersOnly rest next
      (specialNames ts).flatMap (fun name => go (p.child name) true) ++
        children.flatMap fun (name, t) =>
          if nameMatches ts name then go (childOf p name) t.isFolder else []
    | _ => []
  | .folders :: .folders :: rest, p => follow d foldersOnly (.folders :: rest) p
  | [.folders], p =>
    match d.find p with
    | .ok t => everythingBelow (fun next t => if t.isFolder then [next] else []) p t
    | .error _ => []
  | .folders :: .name s :: rest, p =>
    match d.find p with
    | .ok t => everythingBelow (fun next t =>
        if next.fileName? != some s then []
        else if rest.isEmpty then found foldersOnly next t.isFolder
        else follow d foldersOnly rest next) p t
    | .error _ => []
  | .folders :: .wild ts :: rest, p =>
    match d.find p with
    | .ok t => everythingBelow (fun next t =>
        if !endMatches ts next then []
        else if rest.isEmpty then found foldersOnly next t.isFolder
        else follow d foldersOnly rest next) p t
    | .error _ => []
  termination_by parts => parts.length

/-- The paths that a pattern finds. -/
def run (d : Disk) (pattern : String) : Except PatternError (List Path) :=
  (readPlan pattern).map fun plan =>
    follow d plan.foldersOnly plan.parts ⟨if plan.isAbsolute then "/" else "."⟩

end BuildMatrix.Search
