import BuildMatrix.Regular.Basic
import BuildMatrix.Text.Number
import BuildMatrix.Text.Pieces

/-!
# Classes and escapes in written expressions

Outside and inside of brackets a backslash introduces a character, a class or an assertion. Brackets
hold characters, ranges, classes and other brackets, and combine them by `&&`, `--` and `~~`. Nothing is
returned for a text that is not well formed.
-/

namespace BuildMatrix.Regular

/-- What flags say about how an expression is read. -/
structure Flags where
  caseless : Bool := false
  multiLine : Bool := false
  dotMatchesNewLine : Bool := false
  /-- Whether lines may end with a carriage return. -/
  returns : Bool := false
  /-- Whether blanks and comments are passed over. -/
  verbose : Bool := false
  /-- Whether classes hold the characters of all scripts. -/
  scripts : Bool := true
  deriving DecidableEq, Repr

namespace SymbolClass

/-- The letters and digits of ASCII and the underscore. -/
def asciiWord : SymbolSet :=
  .unionOf [.range 48 57, .range 65 90, .single 95, .range 97 122]

/-- The blanks of ASCII. -/
def asciiBlank : SymbolSet :=
  .unionOf [.range 9 13, .single 32]

/-- The characters of words under some flags. -/
def word (f : Flags) : SymbolSet :=
  if f.scripts then .word else asciiWord

/-- The blanks under some flags. -/
def blank (f : Flags) : SymbolSet :=
  if f.scripts then .blank else asciiBlank

/-- The digits under some flags. -/
def digit (f : Flags) : SymbolSet :=
  if f.scripts then .digit else .range 48 57

/-- A set with the other forms of its letters, if letters have no case. -/
def fold (f : Flags) (s : SymbolSet) : SymbolSet :=
  if !f.caseless then s
  else if f.scripts then .caseless s
  else .inter (.caseless s) (.range 0 127)

/-- The classes that are named between colons. -/
def named? : String → Option SymbolSet
  | "alnum" => some (.unionOf [.range 48 57, .range 65 90, .range 97 122])
  | "alpha" => some (.unionOf [.range 65 90, .range 97 122])
  | "ascii" => some (.range 0 127)
  | "blank" => some (.unionOf [.single 9, .single 32])
  | "cntrl" => some (.unionOf [.range 0 31, .single 127])
  | "digit" => some (.range 48 57)
  | "graph" => some (.range 33 126)
  | "lower" => some (.range 97 122)
  | "print" => some (.range 32 126)
  | "punct" => some (.unionOf [.range 33 47, .range 58 64, .range 91 96, .range 123 126])
  | "space" => some asciiBlank
  | "upper" => some (.range 65 90)
  | "word" => some asciiWord
  | "xdigit" => some (.unionOf [.range 48 57, .range 65 70, .range 97 102])
  | _ => none

end SymbolClass

/-! ## Escapes -/

/-- What a backslash and what follows it stand for. -/
inductive Escape
  | symbol (n : Nat)
  | set (s : SymbolSet)
  | assertion (a : Assertion)

/-- Whether a character stands for itself after a backslash. -/
def standsAfterBackslash (c : Char) : Bool :=
  c.toNat < 128 && !c.isAlphanum && c != '<' && c != '>'

/-- The number of a code point. -/
def codePoint? (n : Nat) : Option Nat :=
  if n.isValidChar then some n else none

/-- The code point that is written with a number of hexadecimal digits, or in braces. -/
def readCode? (width : Nat) (cs : List Char) : Option (Nat × List Char) :=
  match cs with
  | '{' :: rest => do
    let (digits, rest) ← Text.cutAtFirst '}' rest
    let n ← codePoint? (← Text.readNat 16 digits)
    return (n, rest)
  | cs => do
    let digits := cs.take width
    if digits.length ≠ width then none
    else
      let n ← codePoint? (← Text.readNat 16 digits)
      return (n, cs.drop width)

/-- The assertion about the edge of a word that may be named in braces. -/
def readEdge (cs : List Char) : Assertion × List Char :=
  let named := [("\x7bstart\x7d", Assertion.wordStart), ("\x7bend\x7d", .wordEnd),
    ("\x7bstart-half\x7d", .notAfterWord), ("\x7bend-half\x7d", .notBeforeWord)]
  match named.find? fun e => e.1.toList.isPrefixOf cs with
  | some (name, a) => (a, cs.drop name.length)
  | none => (.wordEdge, cs)

/-- A class and its complement; the complement only where classes hold all scripts. -/
def negated? (f : Flags) (s : SymbolSet) : Option Escape :=
  if f.scripts then some (.set (.compl s)) else none

/-- Whether a set of bytes goes beyond ASCII. -/
def isBeyondAscii (s : SymbolSet) : Bool :=
  (List.range 128).any fun n => s.contains (n + 128)

/-- Reads what follows a backslash. -/
def readEscape? (f : Flags) : List Char → Option (Escape × List Char)
  | [] => none
  | c :: cs =>
    let symbol (n : Nat) : Option (Escape × List Char) := some (.symbol n, cs)
    let set (s : SymbolSet) : Option (Escape × List Char) := some (.set s, cs)
    let not (s : SymbolSet) : Option (Escape × List Char) := (negated? f s).map (·, cs)
    let assertion (a : Assertion) : Option (Escape × List Char) := some (.assertion a, cs)
    let code (width : Nat) : Option (Escape × List Char) :=
      (readCode? width cs).map fun (n, rest) => (.symbol n, rest)
    match c with
    | 'a' => symbol 7
    | 'f' => symbol 12
    | 't' => symbol 9
    | 'n' => symbol 10
    | 'r' => symbol 13
    | 'v' => symbol 11
    | 'x' => code 2
    | 'u' => code 4
    | 'U' => code 8
    | 'd' => set (SymbolClass.digit f)
    | 'D' => not (SymbolClass.digit f)
    | 's' => set (SymbolClass.blank f)
    | 'S' => not (SymbolClass.blank f)
    | 'w' => set (SymbolClass.word f)
    | 'W' => not (SymbolClass.word f)
    | 'A' => assertion .textStart
    | 'z' => assertion .textEnd
    | 'b' => let (a, rest) := readEdge cs; some (.assertion a, rest)
    | 'B' => assertion .notWordEdge
    | '<' => assertion .wordStart
    | '>' => assertion .wordEnd
    | c => if standsAfterBackslash c then symbol c.toNat else none

/-! ## Brackets -/

/-- A text without the blanks and comments at its start, if they are to be passed over. -/
def skipBlanks (f : Flags) : List Char → List Char
  | [] => []
  | c :: cs =>
    if !f.verbose then c :: cs
    else if Text.isBlank c then skipBlanks f cs
    else if c = '#' then skipComment f cs
    else c :: cs
where
  /-- A text after the line that a comment is on. -/
  skipComment (f : Flags) : List Char → List Char
    | [] => []
    | c :: cs => if c = '\n' then skipBlanks f cs else skipComment f cs

/-- How two sets in brackets are combined. -/
inductive SetOp
  | inter
  | diff
  | symmDiff

/-- The set that an operation makes. -/
def SetOp.apply : SetOp → SymbolSet → SymbolSet → SymbolSet
  | inter, a, b => .inter a b
  | diff, a, b => .diff a b
  | symmDiff, a, b => .symmDiff a b

/-- Brackets as far as they are read: the operand before the last operation, and the items after
it, last one first. -/
structure Brackets where
  before : Option (SymbolSet × SetOp) := none
  items : List SymbolSet := []

namespace Brackets

/-- Adds an item. -/
def add (b : Brackets) (s : SymbolSet) : Brackets :=
  { b with items := s :: b.items }

/-- The set that is read so far. -/
def toSet (f : Flags) (b : Brackets) : SymbolSet :=
  let last := SymbolClass.fold f (.unionOf b.items.reverse)
  match b.before with
  | none => last
  | some (a, op) => op.apply a last

/-- Begins the operand after an operation. -/
def operate (f : Flags) (b : Brackets) (op : SetOp) : Brackets :=
  ⟨some (b.toSet f, op), []⟩

end Brackets

/-- Hyphens at the start of brackets stand for themselves, as does a closing bracket that comes
first. -/
def readFirstItems (f : Flags) : Brackets → List Char → Brackets × List Char
  | b, '-' :: cs => readFirstItems f (b.add (.ofChar '-')) cs
  | b, ']' :: cs => if b.items.isEmpty then (b.add (.ofChar ']'), cs) else (b, ']' :: cs)
  | b, cs => (b, cs)

/-- A class that is named between colons, after its opening bracket. -/
def readNamed? (cs : List Char) : Option (SymbolSet × List Char) := do
  match cs with
  | ':' :: '^' :: cs =>
    let (name, rest) ← Text.cutAtFirst ':' cs
    let s ← SymbolClass.named? (String.ofList name)
    if rest.head? = some ']' then return (.compl s, rest.tail) else none
  | ':' :: cs =>
    let (name, rest) ← Text.cutAtFirst ':' cs
    let s ← SymbolClass.named? (String.ofList name)
    if rest.head? = some ']' then return (s, rest.tail) else none
  | _ => none

/-- The character, class or assertion at the start of a text. -/
def readItem? (f : Flags) : List Char → Option (Escape × List Char)
  | [] => none
  | '\\' :: cs => readEscape? f cs
  | c :: cs => if f.scripts || c.toNat < 128 then some (.symbol c.toNat, cs) else none

/-- Whether a hyphen at the start of a text is the middle of a range. -/
def isRange (f : Flags) : List Char → Bool
  | '-' :: cs =>
    match skipBlanks f cs with
    | ']' :: _ | '-' :: _ => false
    | _ => true
  | _ => false

/-- The item, or the range, at the start of a text. -/
def readRange? (f : Flags) (cs : List Char) : Option (SymbolSet × List Char) := do
  let (first, cs) ← readItem? f cs
  let cs := skipBlanks f cs
  if isRange f cs then
    let (last, cs) ← readItem? f (skipBlanks f cs.tail)
    match first, last with
    | .symbol m, .symbol n => if m ≤ n then return (.range m n, cs) else none
    | _, _ => none
  else
    match first with
    | .symbol n => return (.single n, cs)
    | .set s => return (s, cs)
    | .assertion _ => none

/-- A set that was read, or its complement; bytes beyond ASCII have no place in it. -/
def closeBrackets (f : Flags) (isNegated : Bool) (b : Brackets) : Option SymbolSet :=
  let s := if isNegated then SymbolSet.compl (b.toSet f) else b.toSet f
  if !f.scripts && isBeyondAscii s then none else some s

/-- Reads what follows an opening bracket. Each unit of `fuel` allows for one item. -/
def readBrackets? (f : Flags) (fuel : Nat) (cs : List Char) : Option (SymbolSet × List Char) :=
  let cs := skipBlanks f cs
  let isNegated := cs.head? == some '^'
  let cs := skipBlanks f (if isNegated then cs.tail else cs)
  let (b, cs) := readFirstItems f {} cs
  readItems fuel isNegated b (skipBlanks f cs)
where
  /-- Reads items up to the closing bracket. -/
  readItems (fuel : Nat) (isNegated : Bool) (b : Brackets) (cs : List Char) :
      Option (SymbolSet × List Char) :=
    match fuel with
    | 0 => none
    | fuel + 1 =>
      match cs with
      | [] => none
      | ']' :: cs => (closeBrackets f isNegated b).map (·, cs)
      | '[' :: cs =>
        match readNamed? cs with
        | some (s, cs) => readItems fuel isNegated (b.add s) (skipBlanks f cs)
        | none =>
          match readBrackets? f fuel cs with
          | some (s, cs) => readItems fuel isNegated (b.add s) (skipBlanks f cs)
          | none => none
      | '&' :: '&' :: cs => readItems fuel isNegated (b.operate f .inter) (skipBlanks f cs)
      | '-' :: '-' :: cs => readItems fuel isNegated (b.operate f .diff) (skipBlanks f cs)
      | '~' :: '~' :: cs => readItems fuel isNegated (b.operate f .symmDiff) (skipBlanks f cs)
      | cs =>
        match readRange? f cs with
        | some (s, cs) => readItems fuel isNegated (b.add s) (skipBlanks f cs)
        | none => none

end BuildMatrix.Regular
