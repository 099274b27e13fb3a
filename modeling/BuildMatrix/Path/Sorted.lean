import BuildMatrix.Path.Basic

/-!
# Entries in the order of paths

Lists that hold at most one entry for each path, in the order of the paths.
-/

namespace BuildMatrix.Path

variable {α : Type}

/-- Puts an entry in its place among entries in order, unless there is one with the same path. -/
def insertNew (key : α → Path) (a : α) : List α → List α
  | [] => [a]
  | b :: rest =>
    match (key a).order (key b) with
    | .lt => a :: b :: rest
    | .eq => b :: rest
    | .gt => b :: insertNew key a rest

/-- Some entries in the order of their paths. The first entry with a path counts. -/
def sortNew (key : α → Path) (as : List α) : List α :=
  as.foldl (fun bs a => insertNew key a bs) []

end BuildMatrix.Path
