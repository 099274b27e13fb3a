import BuildMatrix.Text.Pieces

/-!
# Paths

A path is a text. Its *components* are what it says about a place: an optional root, then names
and steps to the parent. Repeated slashes, slashes at the end and single dots (apart from one at the
start of a relative path) say nothing, but they stay in the text. Paths are compared and ordered by
their components.
-/

namespace BuildMatrix

/-- A component of a path. -/
inductive Component
  | root
  | current
  | parent
  | name (s : String)
  deriving DecidableEq, Repr

namespace Component

/-- The written form of a component. -/
def render : Component → String
  | root => "/"
  | current => "."
  | parent => ".."
  | name s => s

/-- The place of a component's kind in the order of components. -/
def rank : Component → Nat
  | root => 0
  | current => 1
  | parent => 2
  | name _ => 3

/-- The order of components; names are ordered by their characters. -/
def order (a b : Component) : Ordering :=
  match a, b with
  | name s, name t => compare s t
  | a, b => compare a.rank b.rank

/-- The component that a piece between slashes is, if it says anything. -/
def ofPiece? (piece : List Char) : Option Component :=
  match piece with
  | [] | ['.'] => none
  | ['.', '.'] => some parent
  | cs => some (name (String.ofList cs))

end Component

/-- A path. -/
structure Path where
  text : String
  deriving DecidableEq, Repr, Inhabited

namespace Path

/-- The empty path. -/
def empty : Path := ⟨""⟩

/-- The pieces of a path that follow its start. -/
def bodyPieces (p : Path) : List (List Char) :=
  match p.text.toList with
  | '/' :: rest => Text.piecesOf '/' rest
  | cs =>
    match Text.piecesOf '/' cs with
    | ['.'] :: rest => rest
    | pieces => pieces

/-- The component at the start of a path: the root, or a single dot. -/
def start? (p : Path) : Option Component :=
  match p.text.toList with
  | '/' :: _ => some .root
  | cs => if (Text.piecesOf '/' cs).head? = some ['.'] then some .current else none

/-- The components of a path. -/
def components (p : Path) : List Component :=
  p.start?.toList ++ p.bodyPieces.filterMap Component.ofPiece?

/-- Whether a path begins at the root. -/
def isAbsolute (p : Path) : Bool :=
  p.text.toList.head? == some '/'

/-- The text that joins names with slashes after an optional root. -/
def ofComponents : List Component → Path
  | .root :: cs => ⟨"/" ++ "/".intercalate (cs.map Component.render)⟩
  | cs => ⟨"/".intercalate (cs.map Component.render)⟩

/-- Whether two paths have the same components. -/
def same (p q : Path) : Bool :=
  p.components == q.components

/-- The order of lists of components: the first difference decides. -/
def orderComponents : List Component → List Component → Ordering
  | [], [] => .eq
  | [], _ :: _ => .lt
  | _ :: _, [] => .gt
  | a :: as, b :: bs => (a.order b).then (orderComponents as bs)

/-- The order of paths. -/
def order (p q : Path) : Ordering :=
  orderComponents p.components q.components

/-- Whether a path is `base` or lies below it. -/
def isWithin (p base : Path) : Bool :=
  base.components.isPrefixOf p.components

/-- Appends a path: an absolute one replaces the whole, and a slash is put between texts. -/
def join (p q : Path) : Path :=
  if q.isAbsolute || p.text.isEmpty then q
  else if p.text.toList.getLast? = some '/' then ⟨p.text ++ q.text⟩
  else ⟨p.text ++ "/" ++ q.text⟩

/-- Appends a text as a path. -/
def child (p : Path) (name : String) : Path :=
  p.join ⟨name⟩

/-! ## Parts of the text -/

/-- Whether a piece says nothing. -/
def isIdle (piece : List Char) : Bool :=
  (Component.ofPiece? piece).isNone

/-- Pieces without the idle ones at the end. -/
def trimEnd (pieces : List (List Char)) : List (List Char) :=
  (pieces.reverse.dropWhile isIdle).reverse

/-- The text of pieces with slashes between them. -/
def joinPieces (pieces : List (List Char)) : String :=
  String.ofList (List.intercalate ['/'] pieces)

/-- The text of the start of a path and some pieces. -/
def withStart (start : Option Component) (pieces : List (List Char)) : Path :=
  match start with
  | some .root => ⟨"/" ++ joinPieces pieces⟩
  | some .current => ⟨joinPieces (['.'] :: pieces)⟩
  | _ => ⟨joinPieces pieces⟩

/-- Pieces after the first `n` components. -/
def dropPieces : Nat → List (List Char) → List (List Char)
  | 0, pieces => pieces
  | _ + 1, [] => []
  | n + 1, piece :: pieces =>
    if isIdle piece then dropPieces (n + 1) pieces else dropPieces n pieces

/-- The path after its first `n` components, as it is written. -/
def dropComponents (p : Path) (n : Nat) : Path :=
  if n = 0 then withStart p.start? (trimEnd p.bodyPieces)
  else
    let pieces := dropPieces (n - p.start?.toList.length) p.bodyPieces
    withStart none (trimEnd (pieces.dropWhile isIdle))

/-- The part of a path below `base`, as it is written; none if it is not within `base`. -/
def strip? (p base : Path) : Option Path :=
  if p.isWithin base then some (p.dropComponents base.components.length) else none

/-- The path without its last component; none for the root and the empty path. -/
def parent? (p : Path) : Option Path :=
  match (trimEnd p.bodyPieces).reverse with
  | _ :: before => some (withStart p.start? (trimEnd before.reverse))
  | [] =>
    match p.start? with
    | some .current => some empty
    | _ => none

/-- The name at the end of a path. -/
def fileName? (p : Path) : Option String :=
  match p.components.getLast? with
  | some (.name s) => some s
  | _ => none

/-- What follows the last dot in the name at the end of a path, unless the dot begins it. -/
def extension? (p : Path) : Option String :=
  match p.fileName? with
  | none => none
  | some s =>
    match Text.cutAtLast '.' s.toList with
    | some (_ :: _, after) => if s = ".." then none else some (String.ofList after)
    | _ => none

end Path

end BuildMatrix
