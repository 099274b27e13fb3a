/-!
# File trees

A file tree is a file or a folder with named children, in the order in which the folder lists them.
Children that are added keep to the order of names. A place in a tree is a list of names, read from the
top.
-/

namespace BuildMatrix

/-- What a file holds: a text, or bytes that are no text. -/
inductive Content
  | text (s : String)
  | binary (bytes : List UInt8)
  deriving DecidableEq, Repr

/-- A file or a folder. -/
inductive FileTree
  | file (content : Content)
  | folder (children : List (String × FileTree))
  deriving Repr, Inhabited

/-- The content that bytes make up. -/
def Content.ofBytes (bytes : List UInt8) : Content :=
  match String.fromUTF8? ⟨bytes.toArray⟩ with
  | some s => .text s
  | none => .binary bytes

/-- The bytes of a content. -/
def Content.toBytes : Content → List UInt8
  | .text s => s.toUTF8.toList
  | .binary bytes => bytes

/-- One content after another. -/
def Content.append : Content → Content → Content
  | .text a, .text b => .text (a ++ b)
  | a, b => .ofBytes (a.toBytes ++ b.toBytes)

namespace FileTree

/-- The folder without children. -/
def emptyFolder : FileTree :=
  folder []

/-- Whether a tree is a folder. -/
def isFolder : FileTree → Bool
  | file _ => false
  | folder _ => true

/-- The children of a folder; a file has none. -/
def children : FileTree → List (String × FileTree)
  | file _ => []
  | folder cs => cs

/-- The subtree at a place. -/
def get? (t : FileTree) : List String → Option FileTree
  | [] => some t
  | n :: ns =>
    match t.children.lookup n with
    | some c => get? c ns
    | none => none

/-- Changes the child with a name. The change gets the child, if it is there, and says what
stands in its place, if anything. A new child comes before the first one with a later name. -/
def alterChild (name : String) (f : Option FileTree → Option FileTree) :
    List (String × FileTree) → List (String × FileTree)
  | [] => (f none).toList.map (name, ·)
  | (n, c) :: cs =>
    if name = n then (f (some c)).toList.map (name, ·) ++ cs
    else if name < n ∧ cs.lookup name = none then (f none).toList.map (name, ·) ++ (n, c) :: cs
    else (n, c) :: alterChild name f cs

/-- Changes the subtree at a place. Where the way to it does not exist, nothing changes, and the
whole tree is never taken away. -/
def alter (f : Option FileTree → Option FileTree) : List String → FileTree → FileTree
  | [], t => (f (some t)).getD t
  | [n], folder cs => folder (alterChild n f cs)
  | n :: ns, folder cs => folder (alterChild n (fun c => c.map (alter f ns)) cs)
  | _, file c => file c

/-- Puts a tree at a place. -/
def put (t : FileTree) (place : List String) (new : FileTree) : FileTree :=
  alter (fun _ => some new) place t

/-- Takes away the tree at a place. -/
def remove (t : FileTree) (place : List String) : FileTree :=
  alter (fun _ => none) place t

end FileTree

end BuildMatrix
