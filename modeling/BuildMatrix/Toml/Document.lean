import BuildMatrix.Toml.Scalar

/-!
# TOML documents

A document is a list of lines: entries, headers of tables and comments. An entry belongs to the
table of the last header before it. No key may be given a value twice. Nothing is returned for a
text that is no document.
-/

namespace BuildMatrix.Toml

/-! ## Keys -/

/-- Whether a character may stand in a key without quotes. -/
def isKeyChar (c : Char) : Bool :=
  c.isAlphanum || c == '_' || c == '-'

/-- Reads one name of a key. -/
def readName? (cs : List Char) : Option (String × List Char) :=
  match cs with
  | '"' :: rest =>
    (readLineText? '"' true (rest.length + 1) rest).map fun (s, cs) => (String.ofList s, cs)
  | '\'' :: rest =>
    (readLineText? '\'' false (rest.length + 1) rest).map fun (s, cs) => (String.ofList s, cs)
  | cs =>
    match cs.takeWhile isKeyChar with
    | [] => none
    | name => some (String.ofList name, cs.dropWhile isKeyChar)

/-- Reads a key: the names before its last dot, its last name and what follows the blanks after
it. -/
def readKey? (fuel : Nat) (before : List String) (cs : List Char) :
    Option (List String × String × List Char) :=
  match fuel with
  | 0 => none
  | fuel + 1 => do
    let (name, cs) ← readName? (skipSpaces cs)
    match skipSpaces cs with
    | '.' :: cs => readKey? fuel (before ++ [name]) cs
    | cs => return (before, name, cs)

/-! ## Values -/

/-- What follows a comment up to the end of its line; none if the comment holds a character that it
must not. -/
def skipComment? (cs : List Char) : Option (List Char) :=
  match cs with
  | '#' :: rest =>
    let after := rest.dropWhile isPrintable
    if after.isEmpty || (afterBreak? after).isSome then some after else none
  | cs => some cs

/-- A text without the blanks, comments and line breaks at its start. -/
def skipTrivia? (fuel : Nat) (cs : List Char) : Option (List Char) :=
  match fuel with
  | 0 => none
  | fuel + 1 =>
    match skipComment? (skipSpaces cs) with
    | none => none
    | some cs =>
      match afterBreak? cs with
      | some cs => skipTrivia? fuel cs
      | none => some cs

mutual

/-- Reads a value. Each unit of `fuel` allows for one part of it. -/
def readValue? (fuel : Nat) (cs : List Char) : Option (Toml × List Char) :=
  match fuel with
  | 0 => none
  | fuel + 1 =>
    match cs with
    | '[' :: cs => readItems? fuel [] cs
    | '{' :: cs =>
      match skipSpaces cs with
      | '}' :: cs => some (table .braces [], cs)
      | cs => readMembers? fuel [] cs
    | '"' :: _ | '\'' :: _ => (readText? cs).map fun (s, cs) => (text (String.ofList s), cs)
    | cs =>
      let (word, rest) := cutWord cs
      (ofWord? word).map (·, rest)

/-- Reads the items of an array up to its bracket. -/
def readItems? (fuel : Nat) (items : List Toml) (cs : List Char) : Option (Toml × List Char) :=
  match fuel with
  | 0 => none
  | fuel + 1 => do
    match ← skipTrivia? (cs.length + 1) cs with
    | ']' :: cs => return (array items.reverse, cs)
    | cs =>
      let (v, cs) ← readValue? fuel cs
      match ← skipTrivia? (cs.length + 1) cs with
      | ',' :: cs => readItems? fuel (v :: items) cs
      | ']' :: cs => return (array (v :: items).reverse, cs)
      | _ => none

/-- Reads the members of a table up to its brace. -/
def readMembers? (fuel : Nat) (es : Entries) (cs : List Char) : Option (Toml × List Char) :=
  match fuel with
  | 0 => none
  | fuel + 1 => do
    match ← readKey? (cs.length + 1) [] cs with
    | (path, key, '=' :: cs) =>
      let (v, cs) ← readValue? fuel (skipSpaces cs)
      let es ← addDotted key v path es
      match skipSpaces cs with
      | ',' :: cs => readMembers? fuel es cs
      | '}' :: cs => return (table .braces es, cs)
      | _ => none
    | _ => none

end

/-! ## Lines -/

/-- What follows the rest of a line, which may hold a comment. -/
def endLine? (cs : List Char) : Option (List Char) :=
  match skipComment? (skipSpaces cs) with
  | none => none
  | some [] => some []
  | some cs => afterBreak? cs

/-- Reads a line. Entries are added to the table at `place`, the names of the last header. The
result is the document and the place after the line, and the lines that follow. -/
def readLine? (root : Entries) (place : List String) (cs : List Char) :
    Option (Entries × List String × List Char) :=
  match cs with
  | '[' :: '[' :: cs => do
    match ← readKey? (cs.length + 1) [] cs with
    | (path, key, ']' :: ']' :: cs) =>
      let root ← alterAt (openElement key) path root
      return (root, path ++ [key], ← endLine? cs)
    | _ => none
  | '[' :: cs => do
    match ← readKey? (cs.length + 1) [] cs with
    | (path, key, ']' :: cs) =>
      let root ← alterAt (openTable key) path root
      return (root, path ++ [key], ← endLine? cs)
    | _ => none
  | cs => do
    match ← readKey? (cs.length + 1) [] cs with
    | (path, key, '=' :: cs) =>
      let (v, cs) ← readValue? (2 * cs.length + 2) (skipSpaces cs)
      let root ← alterAt (addDotted key v path) place root
      return (root, place, ← endLine? cs)
    | _ => none

/-- Reads lines. Each unit of `fuel` allows for one. -/
def readLines? (fuel : Nat) (root : Entries) (place : List String) (cs : List Char) :
    Option Entries :=
  match fuel with
  | 0 => none
  | fuel + 1 =>
    match skipTrivia? (cs.length + 1) cs with
    | none => none
    | some [] => some root
    | some cs =>
      match readLine? root place cs with
      | none => none
      | some (root, place, cs) => readLines? fuel root place cs

/-- The entries of a document. A mark of the byte order at the start is passed over. -/
def parse? (content : String) : Option Entries :=
  let cs := match content.toList with
    | '\ufeff' :: cs => cs
    | cs => cs
  readLines? (cs.length + 1) [] [] cs

end BuildMatrix.Toml
