import BuildMatrix.Table

/-!
# TOML values

A TOML document is a table of values. Tables know how they came about, since that decides what may still
be added to them: by a header, on the way to a header or to a dotted key, or in braces.
-/

namespace BuildMatrix

/-- How a table came about. -/
inductive TableOrigin
  | header
  /-- Implied by a header of a table below it. -/
  | implied
  /-- Implied by a dotted key. -/
  | dotted
  | braces
  deriving DecidableEq, Repr

/-- A TOML value. Numbers with a fraction and moments are recognised, but what they are worth
is not kept. -/
inductive Toml
  | text (s : String)
  | int (n : Int)
  | float
  | bool (b : Bool)
  | moment
  | array (items : List Toml)
  | table (origin : TableOrigin) (entries : List (String × Toml))
  /-- Tables under one name, last one first. -/
  | tables (elements : List (List (String × Toml)))
  deriving Repr, Inhabited

namespace Toml

/-- The entries of a table. -/
abbrev Entries :=
  List (String × Toml)

/-- Changes the value under a key, or adds one at the end. The change gets the old value, if there
is one, and may refuse. -/
def alterKey (key : String) (f : Option Toml → Option Toml) : Entries → Option Entries
  | [] => (f none).map fun v => [(key, v)]
  | (k, v) :: es =>
    if k = key then (f (some v)).map fun v => (k, v) :: es
    else (alterKey key f es).map ((k, v) :: ·)

/-- Adds a value under a new key. -/
def addKey (key : String) (v : Toml) : Entries → Option Entries :=
  alterKey key fun
    | none => some v
    | some _ => none

/-- Changes the table that a path of headers leads to. Missing tables are implied; of tables under
one name the last is meant. -/
def alterAt (f : Entries → Option Entries) : List String → Entries → Option Entries
  | [], es => f es
  | key :: path, es => alterKey key (fun
      | none => (alterAt f path []).map (table .implied)
      | some (table .braces _) => none
      | some (table origin inner) => (alterAt f path inner).map (table origin)
      | some (tables (last :: rest)) =>
        (alterAt f path last).map fun last => tables (last :: rest)
      | some _ => none) es

/-- Adds a value under a dotted key, of which `path` are the names before the last. Tables on the
way must have come about in passing. -/
def addDotted (key : String) (v : Toml) : List String → Entries → Option Entries
  | [], es => addKey key v es
  | name :: path, es => alterKey name (fun
      | none => (addDotted key v path []).map (table .dotted)
      | some (table .dotted inner) => (addDotted key v path inner).map (table .dotted)
      | some (table .implied inner) =>
        if path.isEmpty then none else (addDotted key v path inner).map (table .implied)
      | some _ => none) es

/-- Opens the table of a header: a new one, or one that a header below it implied. -/
def openTable (key : String) : Entries → Option Entries :=
  alterKey key fun
    | none => some (table .header [])
    | some (table .implied inner) => some (table .header inner)
    | some _ => none

/-- Opens one more table under a name. -/
def openElement (key : String) : Entries → Option Entries :=
  alterKey key fun
    | none => some (tables [[]])
    | some (tables elements) => some (tables ([] :: elements))
    | some _ => none

end Toml

end BuildMatrix
