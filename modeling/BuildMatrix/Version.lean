import BuildMatrix.Text.Number
import BuildMatrix.Text.Pieces

/-!
# Versions

A version has three numbers, an optional pre-release part and an optional build part. `read`
accepts the full form `1.2.3-rc.1+linux`; `readLenient` also accepts `5`, `5.1` and a leading
`v`. Versions are ordered by their numbers, a pre-release comes before its release, and build
parts break the remaining ties.
-/

namespace BuildMatrix

/-- A version; the two parts are lists of dot-separated identifiers, empty when absent. -/
structure Version where
  major : Nat
  minor : Nat
  patch : Nat
  pre : List String := []
  build : List String := []
  deriving DecidableEq, Repr, Inhabited

namespace Version

/-- The written form of a version. -/
def render (v : Version) : String :=
  let numbers := s!"{v.major}.{v.minor}.{v.patch}"
  let pre := if v.pre.isEmpty then "" else "-" ++ ".".intercalate v.pre
  let build := if v.build.isEmpty then "" else "+" ++ ".".intercalate v.build
  numbers ++ pre ++ build

/-! ## Order -/

/-- Whether an identifier is written with digits only. -/
def isNumeric (s : String) : Bool :=
  s.toList.all Char.isDigit

/-- Numeric identifiers come before the others; among themselves they are ordered as numbers. -/
def comparePre (a b : String) : Ordering :=
  match isNumeric a, isNumeric b with
  | true, false => .lt
  | false, true => .gt
  | false, false => compare a b
  | true, true => (compare a.length b.length).then (compare a b)

/-- As `comparePre`, but leading zeros are allowed: they count only between equal numbers. -/
def compareBuild (a b : String) : Ordering :=
  match isNumeric a, isNumeric b with
  | true, false => .lt
  | false, true => .gt
  | false, false => compare a b
  | true, true =>
    let short (s : String) := String.ofList (s.toList.dropWhile (· = '0'))
    ((compare (short a).length (short b).length).then (compare (short a) (short b))).then
      (compare a.length b.length)

/-- Identifier by identifier; a list comes before its extensions. -/
def compareParts (f : String → String → Ordering) : List String → List String → Ordering
  | [], [] => .eq
  | [], _ :: _ => .lt
  | _ :: _, [] => .gt
  | a :: as, b :: bs => (f a b).then (compareParts f as bs)

/-- The order of pre-release parts: having none comes last. -/
def comparePrePart : List String → List String → Ordering
  | [], [] => .eq
  | [], _ :: _ => .gt
  | _ :: _, [] => .lt
  | as, bs => compareParts comparePre as bs

/-- The order of versions. -/
def order (a b : Version) : Ordering :=
  (compare a.major b.major).then <|
    (compare a.minor b.minor).then <|
      (compare a.patch b.patch).then <|
        (comparePrePart a.pre b.pre).then (compareParts compareBuild a.build b.build)

/-! ## Reading -/

/-- Reads a number without superfluous leading zeros, and the rest of the text. -/
def readNumber (cs : List Char) : Option (Nat × List Char) :=
  let digits := cs.takeWhile Char.isDigit
  if 1 < digits.length ∧ digits.head? = some '0' then none
  else
    match Text.readUnsigned digits with
    | some n => if digits.isEmpty then none else some (n, cs.dropWhile Char.isDigit)
    | none => none

/-- Reads a dot. -/
def readDot : List Char → Option (List Char)
  | '.' :: rest => some rest
  | _ => none

/-- The characters of identifiers and the dots between them. -/
def isPartChar (c : Char) : Bool :=
  c.isAlphanum || c == '-' || c == '.'

/-- The identifiers of a part: none may be empty, and where `strictZeros` holds a numeric one has
no superfluous leading zero. -/
def readPart (strictZeros : Bool) (cs : List Char) : Option (List String × List Char) :=
  let ids := Text.piecesOf '.' (cs.takeWhile isPartChar)
  let bad (id : List Char) : Bool :=
    id.isEmpty || (strictZeros && id.all Char.isDigit && 1 < id.length && id.head? == some '0')
  if ids.any bad then none else some (ids.map String.ofList, cs.dropWhile isPartChar)

/-- Reads the full form of a version. -/
def readChars (cs : List Char) : Option Version := do
  let (major, cs) ← readNumber cs
  let (minor, cs) ← readNumber (← readDot cs)
  let (patch, cs) ← readNumber (← readDot cs)
  let (pre, cs) ← match cs with
    | '-' :: rest => readPart true rest
    | _ => some ([], cs)
  let (build, cs) ← match cs with
    | '+' :: rest => readPart false rest
    | _ => some ([], cs)
  if cs.isEmpty then some ⟨major, minor, patch, pre, build⟩ else none

/-- Reads the full form of a version. -/
def read (s : String) : Option Version :=
  readChars s.toList

/-- Reads one to three numbers, the missing ones being zero. -/
def readShort (cs : List Char) : Option Version :=
  match (Text.piecesOf '.' cs).mapM Text.readUnsigned with
  | some [major] => some ⟨major, 0, 0, [], []⟩
  | some [major, minor] => some ⟨major, minor, 0, [], []⟩
  | some [major, minor, patch] => some ⟨major, minor, patch, [], []⟩
  | _ => none

/-- Reads a version in the full form or as one to three numbers, after leading letters `v`. -/
def readLenient (s : String) : Option Version :=
  let cs := (Text.trimChars s.toList).dropWhile (· = 'v')
  match readChars cs with
  | some v => some v
  | none => readShort cs

end Version

end BuildMatrix
