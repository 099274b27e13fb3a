import BuildMatrix.Regular.Class

/-!
# Written expressions

The usual way to write regular expressions: alternatives, groups, repetitions, classes, escapes,
assertions and flags. References to groups and assertions about longer texts are no part of it. A text that is not
well formed has no expression.
-/

namespace BuildMatrix.Regular

/-- A part of a branch. -/
inductive Item
  | part (r : Regular)
  /-- A place where flags change; it cannot be repeated. -/
  | flags

/-- A branch as far as it is read, last part first, with the branches before it. -/
structure Group where
  flags : Flags
  branches : List Regular := []
  items : List Item := []

namespace Group

/-- Adds a part to the branch. -/
def add (g : Group) (r : Regular) : Group :=
  { g with items := .part r :: g.items }

/-- The expression of an item. -/
def itemRegular : Item → Regular
  | .part r => r
  | .flags => nothing

/-- The expression of the branch. -/
def branch (g : Group) : Regular :=
  seqOf (g.items.reverse.map itemRegular)

/-- Begins the next branch. -/
def nextBranch (g : Group) : Group :=
  { g with branches := g.branch :: g.branches, items := [] }

/-- The expression of the group. -/
def toRegular (g : Group) : Regular :=
  altOf (g.branch :: g.branches).reverse

/-- Repeats the last part, if there is one. -/
def repeatLast (g : Group) (f : Regular → Regular) : Option Group :=
  match g.items with
  | .part r :: rest => some { g with items := .part (f r) :: rest }
  | _ => none

end Group

/-- An expression as far as it is read: the innermost group, the groups around it, and the names of
groups. -/
structure Reading where
  group : Group
  outer : List Group := []
  names : List (List Char) := []

namespace Reading

/-- Adds a part to the branch. -/
def add (s : Reading) (r : Regular) : Reading :=
  { s with group := s.group.add r }

/-- Opens a group under some flags. -/
def openGroup (s : Reading) (f : Flags) : Reading :=
  { s with group := { flags := f }, outer := s.group :: s.outer }

/-- Closes the innermost group. -/
def closeGroup (s : Reading) : Option Reading :=
  match s.outer with
  | [] => none
  | g :: outer => some { s with group := g.add s.group.toRegular, outer }

end Reading

/-! ## Flags and names -/

/-- The flags with one of them set or cleared; none for an unknown one. Whether repetitions prefer
many is of no account. -/
def Flags.set? (f : Flags) (c : Char) (value : Bool) : Option Flags :=
  match c with
  | 'i' => some { f with caseless := value }
  | 'm' => some { f with multiLine := value }
  | 's' => some { f with dotMatchesNewLine := value }
  | 'R' => some { f with returns := value }
  | 'x' => some { f with verbose := value }
  | 'u' => some { f with scripts := value }
  | 'U' => some f
  | _ => none

/-- Reads flags up to a colon or a closing parenthesis: the flags, whether there was any, and the
text from that character on. -/
def readFlags? (f : Flags) (seen : List Char) (value : Bool) :
    List Char → Option (Flags × Bool × List Char)
  | [] => none
  | c :: cs =>
    if c = ':' || c = ')' then
      if seen.head? = some '-' then none else some (f, !seen.isEmpty, c :: cs)
    else if seen.contains c then none
    else if c = '-' then readFlags? f (c :: seen) false cs
    else
      match f.set? c value with
      | some f => readFlags? f (c :: seen) value cs
      | none => none

/-- Whether a character may stand in the name of a group. -/
def isGroupNameChar (isFirst : Bool) (c : Char) : Bool :=
  c == '_' || c.isAlpha || (128 ≤ c.toNat && Text.isWordCode c.toNat && !Text.isDigitCode c.toNat) ||
    (!isFirst && (c == '.' || c == '[' || c == ']' || Text.isDigitCode c.toNat))

/-- Reads the name of a group. -/
def readGroupName? (cs : List Char) : Option (List Char × List Char) :=
  match Text.cutAtFirst '>' cs with
  | some (c :: name, rest) =>
    if isGroupNameChar true c && name.all (isGroupNameChar false) then some (c :: name, rest)
    else none
  | _ => none

/-- Reads what follows an opening parenthesis. -/
def Reading.openAt? (s : Reading) (cs : List Char) : Option (Reading × List Char) :=
  let f := s.group.flags
  let named (cs : List Char) : Option (Reading × List Char) := do
    let (name, rest) ← readGroupName? cs
    if s.names.contains name then none
    else return ({ s.openGroup f with names := name :: s.names }, rest)
  match cs with
  | '?' :: 'P' :: '<' :: cs => named cs
  | '?' :: '<' :: '=' :: _ | '?' :: '<' :: '!' :: _ => none
  | '?' :: '<' :: cs => named cs
  | '?' :: cs =>
    match readFlags? f [] true cs with
    | some (f, _, ':' :: rest) => some (s.openGroup f, rest)
    | some (f, true, ')' :: rest) =>
      some ({ s with group := { s.group with flags := f, items := .flags :: s.group.items } }, rest)
    | _ => none
  | cs => some (s.openGroup f, cs)

/-! ## Repetitions -/

/-- A text without the question mark at its start. -/
def skipQuestion : List Char → List Char
  | '?' :: cs => cs
  | cs => cs

/-- Reads a number with blanks around it. -/
def readCount? (cs : List Char) : Option (Nat × List Char) := do
  let cs := cs.dropWhile Text.isBlank
  let n ← Text.readNat 10 (cs.takeWhile Char.isDigit)
  if n < Nat.pow 2 32 then return (n, (cs.dropWhile Char.isDigit).dropWhile Text.isBlank) else none

/-- Reads the bounds of a repetition after its opening brace. -/
def readBounds? (cs : List Char) : Option ((Regular → Regular) × List Char) := do
  let (least, cs) ← readCount? cs
  match cs with
  | '}' :: cs => return ((times · least), skipQuestion cs)
  | ',' :: '}' :: cs => return (fun r => seq (times r least) (star r), skipQuestion cs)
  | ',' :: cs =>
    let (most, cs) ← readCount? cs
    match cs with
    | '}' :: cs =>
      if least ≤ most then
        return (fun r => seq (times r least) (atMost r (most - least)), skipQuestion cs)
      else none
    | _ => none
  | _ => none

/-! ## Expressions -/

/-- The assertion of a caret. -/
def Flags.caret (f : Flags) : Assertion :=
  if !f.multiLine then .textStart else if f.returns then .returnLineStart else .lineStart

/-- The assertion of a dollar sign. -/
def Flags.dollar (f : Flags) : Assertion :=
  if !f.multiLine then .textEnd else if f.returns then .returnLineEnd else .lineEnd

/-- The symbols that a dot stands for. -/
def Flags.dot? (f : Flags) : Option SymbolSet :=
  if !f.scripts then none
  else if f.dotMatchesNewLine then some .all
  else if f.returns then some (.compl (.union (.ofChar '\n') (.ofChar '\r')))
  else some (.compl (.ofChar '\n'))

/-- The expression of a symbol under some flags. -/
def ofSymbol (f : Flags) (n : Nat) : Regular :=
  one (SymbolClass.fold f (.single n))

/-- The expression of what a backslash introduces. -/
def ofEscape (f : Flags) : Escape → Regular
  | .symbol n => ofSymbol f n
  | .set s => one s
  | .assertion a => look a (SymbolClass.word f)

/-- Reads an expression from a state on. Each unit of `fuel` allows for one part. -/
def readParts? (fuel : Nat) (s : Reading) (cs : List Char) : Option Reading :=
  match fuel with
  | 0 => none
  | fuel + 1 =>
    let f := s.group.flags
    let again (g : Group) (cs : List Char) := readParts? fuel { s with group := g } cs
    match skipBlanks f cs with
    | [] => some s
    | '(' :: cs =>
      match s.openAt? cs with
      | some (s, cs) => readParts? fuel s cs
      | none => none
    | ')' :: cs =>
      match s.closeGroup with
      | some s => readParts? fuel s cs
      | none => none
    | '|' :: cs => again s.group.nextBranch cs
    | '*' :: cs => (s.group.repeatLast star).bind (again · (skipQuestion cs))
    | '+' :: cs => (s.group.repeatLast fun r => seq r (star r)).bind (again · (skipQuestion cs))
    | '?' :: cs => (s.group.repeatLast optional).bind (again · (skipQuestion cs))
    | '{' :: cs =>
      match readBounds? cs with
      | some (times, cs) => (s.group.repeatLast times).bind (again · cs)
      | none => none
    | '[' :: cs =>
      match readBrackets? f fuel cs with
      | some (set, cs) => again (s.group.add (one set)) cs
      | none => none
    | '.' :: cs =>
      match f.dot? with
      | some set => again (s.group.add (one set)) cs
      | none => none
    | '^' :: cs => again (s.group.add (look f.caret (SymbolClass.word f))) cs
    | '$' :: cs => again (s.group.add (look f.dollar (SymbolClass.word f))) cs
    | '\\' :: cs =>
      match readEscape? f cs with
      | some (e, cs) => again (s.group.add (ofEscape f e)) cs
      | none => none
    | c :: cs => again (s.group.add (ofSymbol f c.toNat)) cs

/-- The expression that a text writes. -/
def parse? (text : String) : Option Regular :=
  match readParts? (2 * text.length + 2) { group := { flags := {} } } text.toList with
  | some s => if s.outer.isEmpty then some s.group.toRegular else none
  | none => none

/-- Whether an expression matches somewhere in a text. -/
def occursIn (r : Regular) (text : String) : Bool :=
  r.search (symbolsOf text)

end BuildMatrix.Regular
