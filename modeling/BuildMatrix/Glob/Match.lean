import BuildMatrix.Glob.Basic
import BuildMatrix.Path.Normal

/-!
# Matching file patterns

Patterns are matched on the bytes of a path. So a wildcard for one symbol stands for one byte, and
a class holds the bytes of its characters. Patterns and files are made absolute first;
patterns that cannot be read are left out.
-/

namespace BuildMatrix.Glob

/-- The bytes of a character. -/
def bytesOf (c : Char) : List Nat :=
  (String.singleton c).toUTF8.toList.map UInt8.toNat

/-- The bytes of a text. -/
def textBytes (s : String) : List Nat :=
  s.toUTF8.toList.map UInt8.toNat

/-- The ranges of bytes that a range of characters stands for: the last byte of its start and the
first byte of its end make a range, and all other bytes stand for themselves. -/
def byteRanges (r : Char × Char) : List (Nat × Nat) :=
  if r.1 = r.2 then (bytesOf r.1).map fun b => (b, b)
  else
    let first := bytesOf r.1
    let last := bytesOf r.2
    first.dropLast.map (fun b => (b, b)) ++ [(first.getLastD 0, last.headD 0)] ++
      last.tail.map fun b => (b, b)

/-- The set of bytes of a class. -/
def classBytes (negated : Bool) (ranges : List (Char × Char)) : SymbolSet :=
  let bytes := SymbolSet.unionOf ((ranges.flatMap byteRanges).map fun r => .range r.1 r.2)
  if negated then .compl bytes else bytes

/-- The byte of a slash. -/
def slash : Regular :=
  .one (.ofChar '/')

/-- Any bytes. -/
def anyBytes : Regular :=
  .star (.one .all)

/-- Any byte but a slash. -/
def nameByte : SymbolSet :=
  .compl (.ofChar '/')

mutual

/-- Whether a token stands for no text at all, not even for the empty one. -/
def Token.isIdle : Token → Bool
  | .alternates branches => areIdle branches
  | _ => false

/-- Whether all tokens of a branch are idle. -/
def isIdleBranch : List Token → Bool
  | [] => true
  | t :: ts => t.isIdle && isIdleBranch ts

/-- Whether all branches are idle. -/
def areIdle : List (List Token) → Bool
  | [] => true
  | b :: bs => isIdleBranch b && areIdle bs

end

mutual

/-- Whether the ranges of bytes in a token begin before they end. -/
def Token.isOrdered : Token → Bool
  | .charClass _ ranges => (ranges.flatMap byteRanges).all fun r => r.1 ≤ r.2
  | .alternates branches => areOrdered branches
  | _ => true

/-- Whether the tokens of a branch are ordered. -/
def isOrderedBranch : List Token → Bool
  | [] => true
  | t :: ts => t.isOrdered && isOrderedBranch ts

/-- Whether all branches are ordered. -/
def areOrdered : List (List Token) → Bool
  | [] => true
  | b :: bs => isOrderedBranch b && areOrdered bs

end

mutual

/-- The regular expression of a token. Branches that say nothing are left out. -/
def Token.regular : Token → Regular
  | .literal c => .exactly (bytesOf c)
  | .any => .one nameByte
  | .anyRun => .star (.one nameByte)
  | .foldersFirst => .alt (.optional slash) (.seq anyBytes slash)
  | .foldersLast => .seq slash anyBytes
  | .foldersBetween => .alt slash (.seq slash (.seq anyBytes slash))
  | .charClass negated ranges => .one (classBytes negated ranges)
  | .alternates branches =>
    match branchesRegular branches with
    | [] => .nothing
    | rs => .altOf rs

/-- The regular expression of a branch. -/
def branchRegular : List Token → Regular
  | [] => .nothing
  | t :: ts => .andThen t.regular (branchRegular ts)

/-- The regular expressions of the branches that say something. -/
def branchesRegular : List (List Token) → List Regular
  | [] => []
  | b :: bs => (if isIdleBranch b then [] else [branchRegular b]) ++ branchesRegular bs

end

/-- The regular expression of a pattern. Two stars alone match everything. -/
def regular : List Token → Regular
  | [.foldersFirst] => anyBytes
  | ts => branchRegular ts

/-- The character of a literal. -/
def Token.literal? : Token → Option Char
  | .literal c => some c
  | _ => none

/-- Whether a pattern ends with a dot and is neither a plain text nor one that may follow any
folders and has a slash in it. Files are looked up for such a pattern by their name, or by what
begins with the last dot of it. -/
def endsInDot (ts : List Token) : Bool :=
  ts.getLast?.bind Token.literal? == some '.' && !ts.all (·.literal?.isSome) &&
    match ts with
    | .foldersFirst :: rest =>
      !(rest.all (·.literal?.isSome) && rest.any (·.literal? == some '/'))
    | _ => true

/-- Whether two dots are all that stands behind the last slash of a path. They lead to the folder
above, so such a path has no name. -/
def endsInParent (p : Path) : Bool :=
  (Text.piecesOf '/' p.text.toList).getLast? == some ['.', '.']

/-- Whether a pattern matches a path. A path without a name is not found by its name. -/
def isMatch (ts : List Token) (p : Path) : Bool :=
  !(endsInDot ts && endsInParent p) && (regular ts).fullMatch (textBytes p.text)

/-- The patterns that can be read, made absolute. -/
def readAll (patterns : List String) (root : Path) : List (List Token) :=
  patterns.filterMap fun pattern => (parse (Path.absolutize ⟨pattern⟩ root).text).toOption

/-- Whether one of some files matches one of some patterns, all of them relative to `root`. A
class whose bytes are out of order spoils all patterns. -/
def filesMatch (files : List Path) (patterns : List String) (root : Path) : Bool :=
  let globs := readAll patterns root
  globs.all isOrderedBranch &&
    files.any fun file => globs.any fun ts => isMatch ts (file.absolutize root)

end BuildMatrix.Glob
