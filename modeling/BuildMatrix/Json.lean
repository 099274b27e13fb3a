import BuildMatrix.Text.Pieces

/-!
# JSON texts

A JSON value, written on one line without spaces or over several lines with two spaces of
indentation. Members are written in the order they are given in.
-/

namespace BuildMatrix

/-- A JSON value. -/
inductive JsonValue
  | null
  | bool (b : Bool)
  | int (n : Int)
  | str (s : String)
  | arr (items : List JsonValue)
  | obj (members : List (String × JsonValue))
  deriving Repr, Inhabited

namespace JsonValue

/-- The text that is there, or null. -/
def ofOption : Option String → JsonValue
  | some s => str s
  | none => null

/-- A list of texts. -/
def texts (ss : List String) : JsonValue :=
  arr (ss.map str)

/-- A character of a text: quotes, backslashes and control characters are escaped. -/
def escapeChar (c : Char) : List Char :=
  if c = '"' then ['\\', '"']
  else if c = '\\' then ['\\', '\\']
  else if c = '\n' then ['\\', 'n']
  else if c = '\r' then ['\\', 'r']
  else if c = '\t' then ['\\', 't']
  else if c = '\x08' then ['\\', 'b']
  else if c = '\x0c' then ['\\', 'f']
  else if c.toNat < 16 then ['\\', 'u', '0', '0', '0'] ++ Nat.toDigits 16 c.toNat
  else if c.toNat < 32 then ['\\', 'u', '0', '0'] ++ Nat.toDigits 16 c.toNat
  else [c]

/-- A text in quotes. -/
def quote (s : String) : String :=
  String.ofList ('"' :: (s.toList.flatMap escapeChar ++ ['"']))

mutual

/-- The value on one line. -/
def compact : JsonValue → String
  | null => "null"
  | bool b => if b then "true" else "false"
  | int n => toString n
  | str s => quote s
  | arr items => "[" ++ Text.joinWith "," (compactItems items) ++ "]"
  | obj members => "\x7b" ++ Text.joinWith "," (compactMembers members) ++ "\x7d"

/-- The items of a list, each on one line. -/
def compactItems : List JsonValue → List String
  | [] => []
  | j :: js => compact j :: compactItems js

/-- The members of an object, each on one line. -/
def compactMembers : List (String × JsonValue) → List String
  | [] => []
  | (k, j) :: ms => (quote k ++ ":" ++ compact j) :: compactMembers ms

end

/-- A line break and the indentation of a level. -/
def newLine (level : Nat) : String :=
  String.ofList ('\n' :: List.replicate (2 * level) ' ')

/-- Parts between brackets, each on a line of its own. -/
def bracket (opening closing : String) (level : Nat) (parts : List String) : String :=
  if parts.isEmpty then opening ++ closing
  else
    opening ++ newLine (level + 1) ++ Text.joinWith ("," ++ newLine (level + 1)) parts ++
      newLine level ++ closing

mutual

/-- The value over several lines, inside a number of levels. -/
def prettyAt (level : Nat) : JsonValue → String
  | arr items => bracket "[" "]" level (prettyItems (level + 1) items)
  | obj members => bracket "\x7b" "\x7d" level (prettyMembers (level + 1) members)
  | j => compact j

/-- The items of a list, each over several lines. -/
def prettyItems (level : Nat) : List JsonValue → List String
  | [] => []
  | j :: js => prettyAt level j :: prettyItems level js

/-- The members of an object, each over several lines. -/
def prettyMembers (level : Nat) : List (String × JsonValue) → List String
  | [] => []
  | (k, j) :: ms => (quote k ++ ": " ++ prettyAt level j) :: prettyMembers level ms

end

/-- The value over several lines. -/
def pretty (j : JsonValue) : String :=
  prettyAt 0 j

end JsonValue

end BuildMatrix
