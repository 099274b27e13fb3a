import BuildMatrix.Text.Blank
import BuildMatrix.Text.Caseless
import BuildMatrix.Text.Digit

/-!
# Sets of symbols

A symbol is a code point or a byte, given by its number. A set of symbols is built from ranges and
from the classes of blanks, digits and characters of words.
-/

namespace BuildMatrix

/-- A set of symbols. -/
inductive SymbolSet
  | range (first last : Nat)
  | blank
  | digit
  | word
  | union (a b : SymbolSet)
  | inter (a b : SymbolSet)
  | diff (a b : SymbolSet)
  | symmDiff (a b : SymbolSet)
  | compl (a : SymbolSet)
  /-- The symbols that are a form of the same letter as one in the set. -/
  | caseless (a : SymbolSet)
  deriving DecidableEq, Repr

namespace SymbolSet

/-- Whether a symbol is in a set. -/
def contains : SymbolSet → Nat → Bool
  | range first last, n => first ≤ n && n ≤ last
  | blank, n => Text.isBlank (Char.ofNat n)
  | digit, n => Text.isDigitCode n
  | word, n => Text.isWordCode n
  | union a b, n => a.contains n || b.contains n
  | inter a b, n => a.contains n && b.contains n
  | diff a b, n => a.contains n && !b.contains n
  | symmDiff a b, n => a.contains n != b.contains n
  | compl a, n => !a.contains n
  | caseless a, n => (Text.lettersLike n).any a.contains

/-- The set of one symbol. -/
def single (n : Nat) : SymbolSet :=
  range n n

/-- The empty set. -/
def empty : SymbolSet :=
  range 1 0

/-- The set of all symbols. -/
def all : SymbolSet :=
  compl empty

/-- The union of some sets. -/
def unionOf : List SymbolSet → SymbolSet
  | [] => empty
  | [a] => a
  | a :: rest => union a (unionOf rest)

/-- The set of one character. -/
def ofChar (c : Char) : SymbolSet :=
  single c.toNat

end SymbolSet

end BuildMatrix
