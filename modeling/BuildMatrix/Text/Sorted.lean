/-!
# Sorted texts

Lists of texts in strictly rising order stand for sets of texts.
-/

namespace BuildMatrix.Text

/-- Adds a text to a list of texts in strictly rising order. -/
def insertSorted (s : String) : List String → List String
  | [] => [s]
  | t :: ts => if s = t then t :: ts else if s < t then s :: t :: ts else t :: insertSorted s ts

/-- Some texts in strictly rising order. -/
def sortUnique (ts : List String) : List String :=
  ts.foldl (fun sorted t => insertSorted t sorted) []

end BuildMatrix.Text
