import BuildMatrix.Text.Number
import BuildMatrix.Text.Pieces
import BuildMatrix.Value

/-!
# Capability constants in headers

A line `#define NAME value` gives a constant its value: a decimal or hexadecimal number with an
optional suffix, or a quoted text. The value may stand in parentheses, and a comment may follow.
Other lines say nothing, nor do numbers that a signed word does not hold.
-/

namespace BuildMatrix.Sdk

/-- What follows `start`, if a text begins with it. -/
def after? (start : String) (cs : List Char) : Option (List Char) :=
  if start.toList.isPrefixOf cs then some (cs.drop start.length) else none

/-- What follows the blanks at the start of a text; there must be one at least. -/
def afterBlanks? : List Char → Option (List Char)
  | [] => none
  | c :: cs => if Text.isBlank c then some (cs.dropWhile Text.isBlank) else none

/-- Whether a character may stand in a name after its first one. -/
def isNameChar (c : Char) : Bool :=
  c.isAlphanum || c == '_'

/-- The name at the start of a text, and what follows. -/
def readName? : List Char → Option (List Char × List Char)
  | [] => none
  | c :: cs =>
    if c.isAlpha then some (c :: cs.takeWhile isNameChar, cs.dropWhile isNameChar) else none

/-- Whether a character belongs to the suffix of a number. -/
def isSuffixChar (c : Char) : Bool :=
  c == 'U' || c == 'u' || c == 'L' || c == 'l'

/-- Whether a character is a hexadecimal digit. -/
def isHexDigit (c : Char) : Bool :=
  (Text.digitValue c).isSome

/-- A constant as it is written. -/
inductive Written
  | hex (digits : List Char)
  | decimal (number : List Char)
  | quoted (text : List Char)
  deriving DecidableEq, Repr

/-- The value of a constant; none for a number that does not fit. -/
def Written.value? : Written → Option Value
  | hex digits => (Text.readSigned 16 digits).map Value.int
  | decimal number => (Text.readSigned 10 number).map Value.int
  | quoted text => some (.str (String.ofList text))

/-- The digits at the start of a text as a decimal number with a given sign, and what follows
its suffix. -/
def readDecimal? (sign cs : List Char) : Option (Written × List Char) :=
  match cs.takeWhile Char.isDigit with
  | [] => none
  | digits =>
    some (.decimal (sign ++ digits), (cs.dropWhile Char.isDigit).dropWhile isSuffixChar)

/-- The hexadecimal digits at the start of a text, and what follows their suffix. -/
def readHex? (cs : List Char) : Option (Written × List Char) :=
  match cs.takeWhile isHexDigit with
  | [] => none
  | digits => some (.hex digits, (cs.dropWhile isHexDigit).dropWhile isSuffixChar)

/-- The constant at the start of a text, and what follows. -/
def readWritten? (cs : List Char) : Option (Written × List Char) :=
  match cs with
  | '"' :: rest => (Text.cutAtFirst '"' rest).map fun (text, after) => (.quoted text, after)
  | '0' :: 'x' :: rest | '0' :: 'X' :: rest => readHex? rest
  | '-' :: rest => readDecimal? ['-'] rest
  | cs => readDecimal? [] cs

/-- A text without an opening character at its start. -/
def skipChar (c : Char) (cs : List Char) : List Char :=
  if cs.head? = some c then cs.tail else cs

/-- Whether only a comment on one line, or nothing, is left. -/
def isComment (cs : List Char) : Bool :=
  match cs with
  | [] => true
  | '/' :: '/' :: rest | '/' :: '*' :: rest => !rest.contains '\n'
  | _ => false

/-- Whether a text may follow a constant: blanks, a closing parenthesis and a comment. -/
def endsDefine (cs : List Char) : Bool :=
  isComment ((skipChar ')' (cs.dropWhile Text.isBlank)).dropWhile Text.isBlank)

/-- The name and the constant in a line. -/
def splitDefine? (line : List Char) : Option (List Char × Written) := do
  let cs ← afterBlanks? (← after? "#define" (Text.trimChars line))
  let (name, cs) ← readName? cs
  let cs ← afterBlanks? cs
  let (written, cs) ← readWritten? ((skipChar '(' cs).dropWhile Text.isBlank)
  if endsDefine cs then some (name, written) else none

/-- The constant that a line defines. -/
def parseDefine (line : String) : Option (String × Value) :=
  (splitDefine? line.toList).bind fun (name, written) =>
    written.value?.map fun v => (String.ofList name, v)

end BuildMatrix.Sdk
