import BuildMatrix.Text.Number
import BuildMatrix.Text.Pieces
import BuildMatrix.Toml.Basic

/-!
# Scalars of TOML

Texts come in four kinds: with escapes or without, on one line or on several. Numbers may have
underscores between digits; integers must fit a signed word. Moments are dates, times or both.
-/

namespace BuildMatrix.Toml

/-- Whether a character may stand in a comment or a text without escapes. -/
def isPrintable (c : Char) : Bool :=
  c == '\t' || (32 ≤ c.toNat && c.toNat != 127)

/-- A text without the blanks at its start. -/
def skipSpaces (cs : List Char) : List Char :=
  cs.dropWhile fun c => c == ' ' || c == '\t'

/-- What follows the line break at the start of a text. -/
def afterBreak? : List Char → Option (List Char)
  | '\n' :: cs => some cs
  | '\r' :: '\n' :: cs => some cs
  | _ => none

/-- A text without the line break at its start. -/
def skipBreak (cs : List Char) : List Char :=
  (afterBreak? cs).getD cs

/-! ## Texts -/

/-- The character that digits after a backslash write. -/
def codeChar? (width : Nat) (cs : List Char) : Option (Char × List Char) := do
  let digits := cs.take width
  if digits.length ≠ width then none
  else
    let n ← Text.readNat 16 digits
    if n.isValidChar then return (Char.ofNat n, cs.drop width) else none

/-- The character that a backslash and what follows it write. -/
def readEscape? : List Char → Option (Char × List Char)
  | [] => none
  | c :: cs =>
    match c with
    | 'b' => some ('\x08', cs)
    | 't' => some ('\t', cs)
    | 'n' => some ('\n', cs)
    | 'f' => some ('\x0c', cs)
    | 'r' => some ('\r', cs)
    | '"' => some ('"', cs)
    | '\\' => some ('\\', cs)
    | 'u' => codeChar? 4 cs
    | 'U' => codeChar? 8 cs
    | _ => none

/-- Blanks and line breaks after a backslash at the end of a line; there must be a line break. -/
def skipFoldedBreak? (cs : List Char) : Option (List Char) :=
  (afterBreak? (skipSpaces cs)).map fun rest =>
    rest.dropWhile fun c => c == ' ' || c == '\t' || c == '\n' || c == '\r'

/-- Reads a text on one line up to its quote. Each unit of `fuel` allows for one character. -/
def readLineText? (quote : Char) (escapes : Bool) (fuel : Nat) (cs : List Char) :
    Option (List Char × List Char) :=
  match fuel, cs with
  | 0, _ | _, [] => none
  | fuel + 1, c :: cs =>
    if c = quote then some ([], cs)
    else if escapes && c = '\\' then do
      let (c, cs) ← readEscape? cs
      let (inner, rest) ← readLineText? quote escapes fuel cs
      return (c :: inner, rest)
    else if isPrintable c then do
      let (inner, rest) ← readLineText? quote escapes fuel cs
      return (c :: inner, rest)
    else none

/-- Reads a text on several lines up to three quotes; up to two more before them belong to the
text. -/
def readBlockText? (quote : Char) (escapes : Bool) (fuel : Nat) (cs : List Char) :
    Option (List Char × List Char) :=
  match fuel, cs with
  | 0, _ | _, [] => none
  | fuel + 1, c :: cs =>
    let keep (c : Char) (cs : List Char) : Option (List Char × List Char) :=
      (readBlockText? quote escapes fuel cs).map fun (inner, rest) => (c :: inner, rest)
    if [quote, quote, quote].isPrefixOf (c :: cs) then
      let extra := ((cs.drop 2).takeWhile (· = quote)).take 2
      some (extra, cs.drop (2 + extra.length))
    else if escapes && c = '\\' then
      match skipFoldedBreak? cs with
      | some cs => readBlockText? quote escapes fuel cs
      | none => (readEscape? cs).bind fun (c, cs) => keep c cs
    else
      match afterBreak? (c :: cs) with
      | some cs => keep '\n' cs
      | none => if isPrintable c then keep c cs else none

/-- Reads a text of any kind. -/
def readText? (cs : List Char) : Option (List Char × List Char) :=
  match cs with
  | '"' :: '"' :: '"' :: cs => readBlockText? '"' true (cs.length + 1) (skipBreak cs)
  | '\'' :: '\'' :: '\'' :: cs => readBlockText? '\'' false (cs.length + 1) (skipBreak cs)
  | '"' :: cs => readLineText? '"' true (cs.length + 1) cs
  | '\'' :: cs => readLineText? '\'' false (cs.length + 1) cs
  | _ => none

/-! ## Numbers -/

/-- Digits without the underscores between them; none if an underscore is not between digits. -/
def plainDigits? (base : Nat) (cs : List Char) : Option (List Char) :=
  let pieces := Text.piecesOf '_' cs
  if pieces.all fun p => (Text.readNat base p).isSome then some pieces.flatten else none

/-- A sign and what follows it. -/
def splitSign : List Char → List Char × List Char
  | '-' :: cs => (['-'], cs)
  | '+' :: cs => ([], cs)
  | cs => ([], cs)

/-- Decimal digits of a whole number, without spare zeros in front. -/
def wholeDigits? (cs : List Char) : Option (List Char) :=
  match plainDigits? 10 cs with
  | some ('0' :: _ :: _) => none
  | ds => ds

/-- The integer that a word writes. -/
def readInt? (cs : List Char) : Option Int :=
  match cs with
  | '0' :: 'x' :: ds => (plainDigits? 16 ds).bind (Text.readSigned 16)
  | '0' :: 'o' :: ds => (plainDigits? 8 ds).bind (Text.readSigned 8)
  | '0' :: 'b' :: ds => (plainDigits? 2 ds).bind (Text.readSigned 2)
  | cs =>
    let (sign, ds) := splitSign cs
    (wholeDigits? ds).bind fun ds => Text.readSigned 10 (sign ++ ds)

/-- Whether a word writes an exponent, without its mark. -/
def isExponent (cs : List Char) : Bool :=
  (plainDigits? 10 (splitSign cs).2).isSome

/-- Cuts a word at the mark of its exponent. -/
def splitExponent (cs : List Char) : List Char × Option (List Char) :=
  match cs.dropWhile fun c => c != 'e' && c != 'E' with
  | [] => (cs, none)
  | _ :: after => (cs.takeWhile fun c => c != 'e' && c != 'E', some after)

/-- Whether a word writes a number with a fraction or an exponent. -/
def isFloat (cs : List Char) : Bool :=
  let cs := (splitSign cs).2
  if cs = "inf".toList || cs = "nan".toList then true
  else
    let (number, exponent) := splitExponent cs
    match Text.cutAtFirst '.' number with
    | some (whole, part) =>
      (wholeDigits? whole).isSome && (plainDigits? 10 part).isSome && exponent.all isExponent
    | none => (wholeDigits? number).isSome && exponent.any isExponent

/-! ## Moments -/

/-- The number that exactly `width` digits write. -/
def exactNumber? (width : Nat) (cs : List Char) : Option Nat :=
  if cs.length = width then Text.readNat 10 cs else none

/-- The number of days of a month. -/
def daysOf (year month : Nat) : Nat :=
  if month = 2 then
    if year % 4 = 0 && (year % 100 ≠ 0 || year % 400 = 0) then 29 else 28
  else if [4, 6, 9, 11].contains month then 30
  else 31

/-- Whether a word is a date. -/
def isDate (cs : List Char) : Bool :=
  match Text.piecesOf '-' cs with
  | [y, m, d] =>
    match exactNumber? 4 y, exactNumber? 2 m, exactNumber? 2 d with
    | some y, some m, some d => 1 ≤ m && m ≤ 12 && 1 ≤ d && d ≤ daysOf y m
    | _, _, _ => false
  | _ => false

/-- Whether a word is a number of `width` digits up to a bound. -/
def isUpTo (bound width : Nat) (cs : List Char) : Bool :=
  (exactNumber? width cs).any (· ≤ bound)

/-- Whether a word is a time of day. -/
def isTime (cs : List Char) : Bool :=
  match Text.piecesOf ':' cs with
  | [h, m, s] =>
    let (whole, part) := match Text.cutAtFirst '.' s with
      | some (whole, part) => (whole, !part.isEmpty && part.all Char.isDigit)
      | none => (s, true)
    isUpTo 23 2 h && isUpTo 59 2 m && isUpTo 60 2 whole && part
  | _ => false

/-- Whether a word is a time of day, perhaps with its distance from the standard time. -/
def isZonedTime (cs : List Char) : Bool :=
  let isOffset (cs : List Char) : Bool :=
    match Text.piecesOf ':' cs with
    | [h, m] => isUpTo 24 2 h && isUpTo 60 2 m
    | _ => false
  match cs.reverse with
  | 'Z' :: time | 'z' :: time => isTime time.reverse
  | _ =>
    match Text.cutAtFirst '+' cs, Text.cutAtFirst '-' cs with
    | some (time, offset), _ => isTime time && isOffset offset
    | _, some (time, offset) => isTime time && isOffset offset
    | _, _ => isTime cs

/-- Whether a word is a moment. -/
def isMoment (cs : List Char) : Bool :=
  isDate cs || isTime cs ||
    (isDate (cs.take 10) &&
      match cs.drop 10 with
      | c :: time => (c == 'T' || c == 't' || c == ' ') && isZonedTime time
      | [] => false)

/-! ## Words -/

/-- Whether a character belongs to a number, a truth value or a moment. -/
def isWordChar (c : Char) : Bool :=
  c.isAlphanum || c == '_' || c == '+' || c == '-' || c == '.' || c == ':'

/-- The word at the start of a text and what follows; a date may be followed by a space and a time. -/
def cutWord (cs : List Char) : List Char × List Char :=
  let word := cs.takeWhile isWordChar
  let rest := cs.dropWhile isWordChar
  match rest with
  | ' ' :: c :: cs =>
    if isDate word && c.isDigit then
      (word ++ ' ' :: (c :: cs).takeWhile isWordChar, (c :: cs).dropWhile isWordChar)
    else (word, rest)
  | _ => (word, rest)

/-- The value of a word. -/
def ofWord? (cs : List Char) : Option Toml :=
  if cs = "true".toList then some (bool true)
  else if cs = "false".toList then some (bool false)
  else
    match readInt? cs with
    | some n => some (int n)
    | none => if isFloat cs then some float else if isMoment cs then some moment else none

end BuildMatrix.Toml
