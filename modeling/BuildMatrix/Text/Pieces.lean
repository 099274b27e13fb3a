import BuildMatrix.Text.Blank

/-!
# Cutting texts into pieces

`pieces` cuts at every occurrence of a separator and keeps empty pieces; `lines` cuts at line
feeds, forgets the empty piece after a last line feed and drops a carriage return before one;
`cutAtLast` cuts at the last occurrence of a separator.
-/

namespace BuildMatrix.Text

/-- The pieces between the occurrences of `sep`; there is always at least one. -/
def piecesOf (sep : Char) : List Char → List (List Char)
  | [] => [[]]
  | c :: cs =>
    if c = sep then [] :: piecesOf sep cs
    else
      match piecesOf sep cs with
      | [] => [[c]]
      | p :: ps => (c :: p) :: ps

/-- The pieces of a text between the occurrences of `sep`. -/
def pieces (sep : Char) (s : String) : List String :=
  (piecesOf sep s.toList).map String.ofList

/-- Cuts at the first occurrence of `sep`. -/
def cutAtFirst (sep : Char) (cs : List Char) : Option (List Char × List Char) :=
  match cs.dropWhile (· ≠ sep) with
  | [] => none
  | _ :: after => some (cs.takeWhile (· ≠ sep), after)

/-- Cuts at the last occurrence of `sep`. -/
def cutAtLast (sep : Char) (cs : List Char) : Option (List Char × List Char) :=
  match cutAtFirst sep cs.reverse with
  | none => none
  | some (after, before) => some (before.reverse, after.reverse)

/-- A line without the carriage return at its end. -/
def dropReturn (line : List Char) : List Char :=
  match line.reverse with
  | '\r' :: rest => rest.reverse
  | _ => line

/-- The lines of a text: each ends before a line feed or a carriage return and a line feed, and
the last one may end with the text. -/
def linesOf (cs : List Char) : List (List Char) :=
  let closed := (piecesOf '\n' cs).dropLast.map dropReturn
  match (piecesOf '\n' cs).getLast? with
  | none | some [] => closed
  | some last => closed ++ [last]

/-- The lines of a text. -/
def lines (s : String) : List String :=
  (linesOf s.toList).map String.ofList

/-- Whether `part` occurs in `cs`. -/
def occursIn (part : List Char) : List Char → Bool
  | [] => part.isEmpty
  | c :: cs => part.isPrefixOf (c :: cs) || occursIn part cs

/-- Every occurrence of `part`, read from the left without overlap, becomes `new`. An empty
`part` is left alone. -/
def replaceAll (part new : List Char) : List Char → List Char
  | [] => []
  | c :: cs =>
    if part.isEmpty then c :: cs
    else if part.isPrefixOf (c :: cs) then
      new ++ replaceAll part new (cs.drop (part.length - 1))
    else c :: replaceAll part new cs
  termination_by cs => cs.length
  decreasing_by all_goals simp [List.length_drop]; try omega

/-- The texts in order with `sep` between them. -/
def joinWith (sep : String) : List String → String
  | [] => ""
  | [s] => s
  | s :: rest => s ++ sep ++ joinWith sep rest

end BuildMatrix.Text
