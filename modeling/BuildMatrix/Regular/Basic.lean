import BuildMatrix.Regular.Symbol

/-!
# Regular expressions

A regular expression is matched from the left. What is left to match after a symbol is a list of
expressions, the *partial derivatives*, of which any may match the rest; there are never more of them
than the first expression has parts. Assertions look at the symbol before and the symbol after
a place.
-/

namespace BuildMatrix

/-- What may be asserted about a place in a text. -/
inductive Assertion
  | textStart
  | textEnd
  | lineStart
  | lineEnd
  /-- As `lineStart`, for lines that may also end with a carriage return. -/
  | returnLineStart
  /-- As `lineEnd`, for lines that may also end with a carriage return. -/
  | returnLineEnd
  | wordEdge
  | notWordEdge
  | wordStart
  | wordEnd
  | notAfterWord
  | notBeforeWord
  deriving DecidableEq, Repr

namespace Assertion

/-- Whether a symbol, if there is one, belongs to a word of some letters. -/
def inWord (letters : SymbolSet) (x : Option Nat) : Bool :=
  x.any letters.contains

/-- Whether an assertion holds between two symbols, either of which may be missing. -/
def holds (a : Assertion) (letters : SymbolSet) (before after : Option Nat) : Bool :=
  match a with
  | textStart => before.isNone
  | textEnd => after.isNone
  | lineStart => before.all (· == '\n'.toNat)
  | lineEnd => after.all (· == '\n'.toNat)
  | returnLineStart =>
    before.all (· == '\n'.toNat) || (before == some '\r'.toNat && after != some '\n'.toNat)
  | returnLineEnd =>
    after.all (· == '\r'.toNat) || (after == some '\n'.toNat && before != some '\r'.toNat)
  | wordEdge => inWord letters before != inWord letters after
  | notWordEdge => inWord letters before == inWord letters after
  | wordStart => !inWord letters before && inWord letters after
  | wordEnd => inWord letters before && !inWord letters after
  | notAfterWord => !inWord letters before
  | notBeforeWord => !inWord letters after

end Assertion

/-- A regular expression. -/
inductive Regular
  | fail
  | nothing
  | one (s : SymbolSet)
  | look (a : Assertion) (letters : SymbolSet)
  | seq (a b : Regular)
  | alt (a b : Regular)
  | star (a : Regular)
  deriving DecidableEq, Repr

namespace Regular

/-- Whether an expression matches nothing at a place between two symbols. -/
def nullable (before after : Option Nat) : Regular → Bool
  | fail => false
  | nothing => true
  | one _ => false
  | look a letters => a.holds letters before after
  | seq a b => a.nullable before after && b.nullable before after
  | alt a b => a.nullable before after || b.nullable before after
  | star _ => true

/-- An expression followed by another one. -/
def andThen (a b : Regular) : Regular :=
  match a with
  | nothing => b
  | _ => seq a b

/-- What is left to match after the symbol `x`, which follows `before`. -/
def partials (before : Option Nat) (x : Nat) : Regular → List Regular
  | fail => []
  | nothing => []
  | one s => if s.contains x then [nothing] else []
  | look _ _ => []
  | seq a b =>
    (a.partials before x).map (andThen · b) ++
      (if a.nullable before (some x) then b.partials before x else [])
  | alt a b => a.partials before x ++ b.partials before x
  | star a => (a.partials before x).map (andThen · (star a))

/-- What is left to match after a symbol, each expression once. -/
def step (before : Option Nat) (x : Nat) (states : List Regular) : List Regular :=
  (states.flatMap (partials before x)).eraseDups

/-- Whether one of some expressions matches all the symbols that follow `before`. -/
def matchesAny (before : Option Nat) (states : List Regular) : List Nat → Bool
  | [] => states.any (nullable before none)
  | x :: xs => matchesAny (some x) (step before x states) xs

/-- Whether an expression matches all symbols of a text. -/
def fullMatch (r : Regular) (xs : List Nat) : Bool :=
  matchesAny none [r] xs

/-- Whether one of some expressions matches the first symbols, or `r` matches some symbols further
on. -/
def searchFrom (r : Regular) (before : Option Nat) (states : List Regular) : List Nat → Bool
  | [] => states.any (nullable before none)
  | x :: xs =>
    states.any (nullable before (some x)) ||
      searchFrom r (some x) (r :: step before x states) xs

/-- Whether an expression matches somewhere in a text. -/
def search (r : Regular) (xs : List Nat) : Bool :=
  searchFrom r none [r] xs

/-! ## Building expressions -/

/-- Expressions one after another. -/
def seqOf : List Regular → Regular
  | [] => nothing
  | [a] => a
  | a :: rest => seq a (seqOf rest)

/-- Any of some expressions. -/
def altOf : List Regular → Regular
  | [] => fail
  | [a] => a
  | a :: rest => alt a (altOf rest)

/-- The expression for exactly these symbols. -/
def exactly (xs : List Nat) : Regular :=
  seqOf (xs.map fun x => one (.single x))

/-- An expression or nothing. -/
def optional (a : Regular) : Regular :=
  alt a nothing

/-- An expression `n` times. -/
def times (a : Regular) (n : Nat) : Regular :=
  seqOf (List.replicate n a)

/-- An expression at most `n` times. -/
def atMost (a : Regular) : Nat → Regular
  | 0 => nothing
  | n + 1 => optional (seq a (atMost a n))

/-- The numbers of the characters of a text. -/
def symbolsOf (s : String) : List Nat :=
  s.toList.map Char.toNat

end Regular

end BuildMatrix
