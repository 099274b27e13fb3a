import BuildMatrix.Path.Basic

/-!
# Normal paths

`normalize` takes single dots out of a path and lets a step to the parent take away what stands
before it, all without looking at files. `absolutize` puts a relative path below a root first, and
`relativeTo` takes the root off again.
-/

namespace BuildMatrix.Path

/-- Adds a component to a normal list of components, last one first. A step to the parent takes
away the last component; at the root, and where there is none, it stays. -/
def normalStep (reversed : List Component) : Component → List Component
  | .root => [.root]
  | .current => reversed
  | .parent =>
    match reversed with
    | [] | [.root] => .parent :: reversed
    | _ :: rest => rest
  | .name s => .name s :: reversed

/-- The components of the normal form. -/
def normalComponents (cs : List Component) : List Component :=
  (cs.foldl normalStep []).reverse

/-- The normal form of a path. -/
def normalize (p : Path) : Path :=
  ofComponents (normalComponents p.components)

/-- The normal form of a path that is relative to `root`. -/
def absolutize (p root : Path) : Path :=
  if p.isAbsolute then p.normalize else (root.join p).normalize

/-- The part of a path below `root`, a dot for the root itself, and a path outside of the root
as it is. -/
def relativeTo (p root : Path) : Path :=
  match p.strip? root with
  | some rest => if rest.text.isEmpty then ⟨"."⟩ else rest
  | none => p

/-- The components of a path, of its parent, and so on up to the root or to nothing. -/
def ancestors (cs : List Component) : List (List Component) :=
  match cs with
  | [] => [[]]
  | [.root] => [[.root]]
  | c :: rest => (c :: rest) :: ancestors (c :: rest).dropLast
  termination_by cs.length

end BuildMatrix.Path
