import BuildMatrix.Disk.Tree

/-!
# Changes between file trees

The changes that turn one file tree into another one, in an order in which they can be made: a folder is
created before anything is put into it.
-/

namespace BuildMatrix

/-- A change at a place in a file tree. -/
inductive Change
  | remove (place : List String)
  | createFolder (place : List String)
  | write (place : List String) (content : Content)
  deriving DecidableEq, Repr

namespace FileTree

/-- The changes that take away the children that are there no more. -/
def removals (place : List String) (before after : List (String × FileTree)) : List Change :=
  (before.filter fun c => (after.lookup c.1).isNone).map fun c => .remove (place ++ [c.1])

mutual

/-- The changes that turn what is at a place, if anything, into a tree. -/
def changesAt (place : List String) (before : Option FileTree) : FileTree → List Change
  | .file new =>
    match before with
    | none => [.write place new]
    | some (.file old) => if old = new then [] else [.write place new]
    | some (.folder _) => [.remove place, .write place new]
  | .folder after =>
    match before with
    | none => .createFolder place :: changesBelow place [] after
    | some (.file _) => .remove place :: .createFolder place :: changesBelow place [] after
    | some (.folder old) => removals place old after ++ changesBelow place old after

/-- The changes that turn the children of a folder into other ones, as far as those are there. -/
def changesBelow (place : List String) (before : List (String × FileTree)) :
    List (String × FileTree) → List Change
  | [] => []
  | (name, t) :: rest =>
    changesAt (place ++ [name]) (before.lookup name) t ++ changesBelow place before rest

end

/-- The changes that turn one tree into another one. -/
def changes (before after : FileTree) : List Change :=
  changesAt [] (some before) after

end FileTree

end BuildMatrix
