import BuildMatrix.Regular.Basic
import BuildMatrix.Path.Basic

/-!
# Search patterns

A search pattern names files name by name. In a name `?` stands for one character, `*` for any
number of them and `[..]` for one character of a class; two stars as a whole name stand for any
number of folders. There are no escapes.
-/

namespace BuildMatrix.Search

/-- What is wrong with a search pattern. -/
inductive Fault
  | tooManyStars
  | starsInName
  | invalidClass
  deriving DecidableEq, Repr

/-- What is wrong, and where: the number of characters before the place. -/
structure PatternError where
  place : Nat
  fault : Fault
  deriving DecidableEq, Repr

/-- The text for a fault. -/
def Fault.message : Fault → String
  | tooManyStars => "wildcards are either regular \x60*\x60 or recursive \x60**\x60"
  | starsInName => "recursive wildcards must form a single path component"
  | invalidClass => "invalid range pattern"

/-- The message of an error. -/
def PatternError.message (e : PatternError) : String :=
  "Pattern syntax error near position " ++ toString e.place ++ ": " ++ e.fault.message

/-- A part of a pattern. -/
inductive Token
  | literal (c : Char)
  | any
  | anyRun
  | folders
  | charClass (negated : Bool) (ranges : List (Char × Char))
  deriving DecidableEq, Repr

/-- The ranges that the characters of a class make up. -/
def classRanges : List Char → List (Char × Char)
  | a :: '-' :: b :: rest => (a, b) :: classRanges rest
  | a :: rest => (a, a) :: classRanges rest
  | [] => []

/-- Cuts a text after its first character at the next closing bracket. -/
def cutClass? : List Char → Option (List Char × List Char)
  | [] => none
  | c :: cs => (Text.cutAtFirst ']' cs).map fun (inner, rest) => (c :: inner, rest)

/-- Reads a class after its opening bracket: the class and what follows. -/
def readClass? : List Char → Option (Token × List Char)
  | '!' :: cs => (cutClass? cs).map fun (inner, rest) => (.charClass true (classRanges inner), rest)
  | cs => (cutClass? cs).map fun (inner, rest) => (.charClass false (classRanges inner), rest)

/-- Reads a pattern from the place `i` on, where `before` is the character before it. At most
`fuel` parts are read. -/
def readFrom (fuel i : Nat) (before : Option Char) (cs : List Char) :
    Except PatternError (List Token) :=
  match fuel, cs with
  | 0, _ => .ok []
  | _, [] => .ok []
  | _, '*' :: '*' :: '*' :: _ => .error ⟨i + 2, .tooManyStars⟩
  | fuel + 1, '*' :: '*' :: rest =>
    if before.all (· == '/') then
      match rest with
      | [] => .ok [.folders]
      | '/' :: rest => (readFrom fuel (i + 3) (some '/') rest).map (.folders :: ·)
      | _ => .error ⟨i + 2, .starsInName⟩
    else .error ⟨i - 1, .starsInName⟩
  | fuel + 1, '*' :: rest => (readFrom fuel (i + 1) (some '*') rest).map (.anyRun :: ·)
  | fuel + 1, '?' :: rest => (readFrom fuel (i + 1) (some '?') rest).map (.any :: ·)
  | fuel + 1, '[' :: rest =>
    match readClass? rest with
    | none => .error ⟨i, .invalidClass⟩
    | some (t, after) =>
      (readFrom fuel (i + 1 + (rest.length - after.length)) (some ']') after).map (t :: ·)
  | fuel + 1, c :: rest => (readFrom fuel (i + 1) (some c) rest).map (.literal c :: ·)

/-- Reads a pattern. -/
def read (cs : List Char) : Except PatternError (List Token) :=
  readFrom cs.length 0 none cs

/-- The regular expression of a token in a name. -/
def Token.regular : Token → Regular
  | .literal c => .one (.ofChar c)
  | .any => .one .all
  | .anyRun => .star (.one .all)
  | .folders => .star (.one .all)
  | .charClass negated ranges =>
    let s := SymbolSet.unionOf (ranges.map fun r => .range r.1.toNat r.2.toNat)
    .one (if negated then .compl s else s)

/-- Whether the tokens of a name match a name. -/
def nameMatches (ts : List Token) (name : String) : Bool :=
  (Regular.seqOf (ts.map Token.regular)).fullMatch (Regular.symbolsOf name)

/-- The character that a token stands for by itself. -/
def Token.literal? : Token → Option Char
  | .literal c => some c
  | _ => none

/-- The text of tokens that are all literals. -/
def literalText? (ts : List Token) : Option String :=
  (ts.mapM Token.literal?).map String.ofList

end BuildMatrix.Search
