import BuildMatrix.Regular.Basic

/-!
# File patterns

A file pattern is a text with wildcards. `?` stands for one symbol and `*` for any number of them,
both without slashes; `[..]` stands for one symbol of a class; `**` as a whole name stands for any
number of folders; `{a,b}` stands for either of its branches; a backslash takes the
next character as it is.
-/

namespace BuildMatrix.Glob

/-- A part of a file pattern. -/
inductive Token
  | literal (c : Char)
  | any
  | anyRun
  /-- Folders at the start, or none. -/
  | foldersFirst
  /-- Everything below a folder. -/
  | foldersLast
  /-- Folders in the middle, or none. -/
  | foldersBetween
  | charClass (negated : Bool) (ranges : List (Char × Char))
  | alternates (branches : List (List Token))
  deriving Repr, Inhabited

/-- What is wrong with a pattern. -/
inductive PatternError
  | unclosedClass
  | invalidRange (first last : Char)
  | unopenedBranches
  | unclosedBranches
  | danglingEscape
  deriving DecidableEq, Repr

/-! ## Classes -/

/-- A class as far as it is read: its ranges, last one first, and whether the next character ends
the last range. -/
structure ClassState where
  ranges : List (Char × Char) := []
  inRange : Bool := false

/-- Adds a character to a class. -/
def ClassState.add (s : ClassState) (c : Char) : Except PatternError ClassState :=
  match s.inRange, s.ranges with
  | true, (first, _) :: rest =>
    if c < first then .error (.invalidRange first c) else .ok ⟨(first, c) :: rest, false⟩
  | _, ranges => .ok ⟨(c, c) :: ranges, false⟩

/-- The ranges of a class that is read to its end; a hyphen at the end stands for itself. -/
def ClassState.finish (s : ClassState) : List (Char × Char) :=
  ((if s.inRange then [('-', '-')] else []) ++ s.ranges).reverse

/-- Reads a class after its first character up to the bracket that closes it. -/
def readClassRest (s : ClassState) :
    (cs : List Char) → Except PatternError (List (Char × Char) × { r : List Char // r.length < cs.length })
  | [] => .error .unclosedClass
  | c :: cs =>
    let next (s : ClassState) := do
      let (ranges, ⟨rest, h⟩) ← readClassRest s cs
      return (ranges, (⟨rest, by simp; omega⟩ : { r : List Char // r.length < (c :: cs).length }))
    if c = ']' then .ok (s.finish, ⟨cs, by simp⟩)
    else if c = '-' && !s.inRange then next { s with inRange := true }
    else
      match s.add c with
      | .error e => .error e
      | .ok s => next s

/-- Reads the class after an opening bracket: whether it is negated, and its ranges. A closing
bracket or a hyphen at the start stands for itself. -/
def readClass (cs : List Char) : Except PatternError
    ((Bool × List (Char × Char)) × { r : List Char // r.length < cs.length }) :=
  match cs with
  | [] => .error .unclosedClass
  | '!' :: c :: cs | '^' :: c :: cs => do
    let (ranges, ⟨rest, h⟩) ← readClassRest ⟨[(c, c)], false⟩ cs
    return ((true, ranges), ⟨rest, by simp; omega⟩)
  | c :: cs => do
    let (ranges, ⟨rest, h⟩) ← readClassRest ⟨[(c, c)], false⟩ cs
    return ((false, ranges), ⟨rest, by simp; omega⟩)

/-! ## Patterns -/

/-- An open brace: the tokens before it, and the branches before the present one. Tokens and
branches have the last one first. -/
structure OpenBrace where
  before : List Token
  branches : List (List Token)

/-- A pattern as far as it is read: the tokens of the present branch, last one first, the open
braces, innermost first, and the last character. -/
structure State where
  tokens : List Token := []
  openBraces : List OpenBrace := []
  last : Option Char := none

namespace State

/-- Adds a token. -/
def push (s : State) (t : Token) (c : Char) : State :=
  { s with tokens := t :: s.tokens, last := some c }

/-- Adds the token for two stars that stand for folders, in place of the slash before them. Next to
folders at the start or at the end they add nothing. -/
def pushFolders (s : State) (t : Token) (c : Char) : State :=
  match s.tokens with
  | .foldersFirst :: _ | .foldersLast :: _ => { s with last := some c }
  | tokens => { s with tokens := t :: tokens.tail, last := some c }

/-- Whether two stars that follow other tokens of the branch may stand for folders. -/
def startsFolders (s : State) : Bool :=
  s.last = some '/' || (!s.openBraces.isEmpty && (s.last = some ',' || s.last = some '{'))

/-- Two stars that stand for one. -/
def pushRuns (s : State) : State :=
  { s with tokens := .anyRun :: .anyRun :: s.tokens, last := some '*' }

/-- Reads two stars, given what follows them: the new state, and whether a slash that follows
belongs to them. -/
def pushStars (s : State) (next : Option Char) : State × Bool :=
  if s.tokens.isEmpty then
    match next with
    | none => ({ s with tokens := [.foldersFirst], last := some '*' }, false)
    | some '/' => ({ s with tokens := [.foldersFirst], last := some '/' }, true)
    | some _ => (s.pushRuns, false)
  else if !s.startsFolders then (s.pushRuns, false)
  else
    match next with
    | none => (s.pushFolders .foldersLast '*', false)
    | some '/' => (s.pushFolders .foldersBetween '/', true)
    | some c =>
      if (c = ',' || c = '}') && !s.openBraces.isEmpty then (s.pushFolders .foldersLast '*', false)
      else (s.pushRuns, false)

/-- Opens a brace. -/
def openBrace (s : State) : State :=
  { tokens := [], openBraces := ⟨s.tokens, []⟩ :: s.openBraces, last := some '{' }

/-- Reads a comma: it ends a branch within braces and stands for itself elsewhere. -/
def comma (s : State) : State :=
  match s.openBraces with
  | [] => s.push (.literal ',') ','
  | b :: outer =>
    { tokens := [], openBraces := { b with branches := s.tokens :: b.branches } :: outer,
      last := some ',' }

/-- Closes a brace. -/
def closeBrace (s : State) : Except PatternError State :=
  match s.openBraces with
  | [] => .error .unopenedBranches
  | b :: outer =>
    let branches := (s.tokens :: b.branches).reverse.map List.reverse
    .ok { tokens := .alternates branches :: b.before, openBraces := outer, last := some '}' }

end State

/-- Reads a pattern from a state on. -/
def readTokens (s : State) (cs : List Char) : Except PatternError State :=
  match cs with
  | [] => .ok s
  | '*' :: '*' :: cs =>
    match s.pushStars cs.head? with
    | (s, true) => readTokens s cs.tail
    | (s, false) => readTokens s cs
  | '*' :: cs => readTokens (s.push .anyRun '*') cs
  | '?' :: cs => readTokens (s.push .any '?') cs
  | '[' :: cs =>
    match readClass cs with
    | .error e => .error e
    | .ok ((negated, ranges), ⟨rest, _⟩) => readTokens (s.push (.charClass negated ranges) ']') rest
  | '{' :: cs => readTokens s.openBrace cs
  | ',' :: cs => readTokens s.comma cs
  | '}' :: cs =>
    match s.closeBrace with
    | .error e => .error e
    | .ok s => readTokens s cs
  | '\\' :: [] => .error .danglingEscape
  | '\\' :: c :: cs => readTokens (s.push (.literal c) c) cs
  | c :: cs => readTokens (s.push (.literal c) c) cs
  termination_by cs.length
  decreasing_by all_goals simp [List.length_tail]; try omega

/-- Reads a pattern. -/
def parse (pattern : String) : Except PatternError (List Token) :=
  match readTokens {} pattern.toList with
  | .error e => .error e
  | .ok s => if s.openBraces.isEmpty then .ok s.tokens.reverse else .error .unclosedBranches

end BuildMatrix.Glob
