import BuildMatrix.Table
import BuildMatrix.Yaml.Node
import BuildMatrix.Yaml.Scalar

/-!
# From nodes to values

References are followed, scalars are given their meaning and tags are kept or applied. Mappings
must not hold a key twice, collections may be nested a hundred and twenty-eight levels deep, and
references may be followed a hundred times as often as the document has parts.
-/

namespace BuildMatrix.Yaml

/-! ## References -/

/-- An anchored node with its number and the number of anchors before it. -/
structure Anchored where
  id : Nat
  begun : Nat
  node : Node Nat

/-- The anchors met so far. -/
structure Anchors where
  names : Table String Nat := []
  begun : Nat := 0
  nodes : List Anchored := []

namespace Anchors

/-- Gives the anchor of a node its number: how many names there were before. A name that is used
again keeps its place, so a later anchor may get a number that is in use. -/
def declare (a : Anchors) (p : Properties) : Anchors × Option (Nat × Nat) :=
  match p.anchor with
  | none => (a, none)
  | some name =>
    ({ a with names := a.names.insert name a.names.length, begun := a.begun + 1 },
      some (a.names.length, a.begun))

/-- Records the node of an anchor. -/
def record (a : Anchors) (declared : Option (Nat × Nat)) (n : Node Nat) : Anchors :=
  match declared with
  | none => a
  | some (id, begun) => { a with nodes := ⟨id, begun, n⟩ :: a.nodes }

/-- The node with a number; of several, the one that begins last. -/
def find? (a : Anchors) (id : Nat) : Option (Node Nat) :=
  let candidates := a.nodes.filter (·.id = id)
  let last := (candidates.map Anchored.begun).foldl max 0
  (candidates.find? (·.begun = last)).map Anchored.node

end Anchors

mutual

/-- Replaces the names of references by numbers; a name must be declared before. -/
def link (a : Anchors) : NamedNode → Option (Node Nat × Anchors)
  | .alias name => (a.names.get? name).map fun id => (.alias id, a)
  | .scalar p plain text =>
    let (a, declared) := a.declare p
    let n := .scalar p plain text
    some (n, a.record declared n)
  | .sequence p items =>
    let (a, declared) := a.declare p
    (linkItems a items).map fun (items, a) =>
      let n := .sequence p items
      (n, a.record declared n)
  | .mapping p entries =>
    let (a, declared) := a.declare p
    (linkEntries a entries).map fun (entries, a) =>
      let n := .mapping p entries
      (n, a.record declared n)

/-- Replaces the names of references in the items of a sequence. -/
def linkItems (a : Anchors) : List NamedNode → Option (List (Node Nat) × Anchors)
  | [] => some ([], a)
  | n :: ns =>
    (link a n).bind fun (n, a) => (linkItems a ns).map fun (ns, a) => (n :: ns, a)

/-- Replaces the names of references in the entries of a mapping. -/
def linkEntries (a : Anchors) :
    List (NamedNode × NamedNode) → Option (List (Node Nat × Node Nat) × Anchors)
  | [] => some ([], a)
  | (k, v) :: es =>
    (link a k).bind fun (k, a) =>
      (link a v).bind fun (v, a) =>
        (linkEntries a es).map fun (es, a) => ((k, v) :: es, a)

end

mutual

/-- The number of parts of a node: scalars, references, and the two ends of collections. -/
def partCount : Node Nat → Nat
  | .alias _ | .scalar .. => 1
  | .sequence _ items => 2 + partCountItems items
  | .mapping _ entries => 2 + partCountEntries entries

/-- The number of parts of the items of a sequence. -/
def partCountItems : List (Node Nat) → Nat
  | [] => 0
  | n :: ns => partCount n + partCountItems ns

/-- The number of parts of the entries of a mapping. -/
def partCountEntries : List (Node Nat × Node Nat) → Nat
  | [] => 0
  | (k, v) :: es => partCount k + partCount v + partCountEntries es

end

/-! ## Values -/

/-- The local tag that a tag is, without its exclamation mark. -/
def localTag? (tag : String) : Option String :=
  match tag.toList with
  | ['!'] => some "!"
  | '!' :: name => some (String.ofList name)
  | _ => none

/-- The root of the tags that the format itself defines. -/
def coreTag (name : String) : String :=
  "tag:yaml.org,2002:" ++ name

/-- The meaning of a scalar with a tag that is not local. -/
def ofTagged? (tag text : String) : Option Yaml :=
  if tag = coreTag "bool" then (bool? text).map bool
  else if tag = coreTag "int" then
    match integer? text.toList with
    | some n => if fitsWord n then some (number (.int n)) else none
    | none => none
  else if tag = coreTag "float" then (float? text.toList).map fun t => number (.float t)
  else if tag = coreTag "null" then if isNullText text then some null else none
  else some (string text)

/-- The meaning of a scalar. -/
def ofScalar? (p : Properties) (plain : Bool) (text : String) : Option Yaml :=
  let untagged := if plain then ofPlain? text else some (string text)
  match p.tag with
  | none => untagged
  | some tag =>
    match localTag? tag with
    | some name => untagged.map (tagged name)
    | none => ofTagged? tag text

/-- Puts the local tag of a collection around its value. -/
def withTag (p : Properties) (v : Yaml) : Yaml :=
  match p.tag.bind localTag? with
  | some name => tagged name v
  | none => v

/-- Follows a reference and counts it. -/
def follow (a : Anchors) (limit : Nat) : Node Nat → StateT Nat Option (Node Nat)
  | .alias id => fun jumps =>
    if limit < jumps + 1 then none else (a.find? id).map (·, jumps + 1)
  | n => pure n

/-- Adds an entry to a mapping, whose keys must differ. -/
def addEntry (read : Node Nat → StateT Nat Option Yaml) (es : Entries) (e : Node Nat × Node Nat) :
    StateT Nat Option Entries := do
  let k ← read e.1
  if es.hasKey k then StateT.lift none
  else return es ++ [(k, ← read e.2)]

/-- The value of a node in which collections are nested at most `depth` levels deep, counting the
references followed. -/
def build (a : Anchors) (limit : Nat) : Nat → Node Nat → StateT Nat Option Yaml
  | 0, n => do
    match ← follow a limit n with
    | .scalar p plain text => StateT.lift (ofScalar? p plain text)
    | _ => StateT.lift none
  | depth + 1, n => do
    match ← follow a limit n with
    | .scalar p plain text => StateT.lift (ofScalar? p plain text)
    | .alias _ => StateT.lift none
    | .sequence p items =>
      let vs ← items.mapM (build a limit depth)
      return withTag p (seq vs)
    | .mapping p entries =>
      let es ← entries.foldlM (addEntry (build a limit depth)) []
      return withTag p (map es)

/-- The greatest number of levels that collections may be nested. -/
def greatestDepth : Nat := 128

/-- A document whose references are numbers, with the anchored nodes; the node is missing where the
text holds none. -/
def linked? (text : String) : Option (Option (Node Nat) × Anchors) :=
  match document? text with
  | none => none
  | some none => some (none, {})
  | some (some n) => (link {} n).map fun (n, a) => (some n, a)

/-- The value of a whole document. -/
def buildRoot (a : Anchors) (n : Node Nat) : Option Yaml :=
  ((build a (100 * partCount n) greatestDepth n).run 0).map Prod.fst

/-- The value of the document that a text holds, null for one without a node. -/
def parse? (text : String) : Option Yaml :=
  match linked? text with
  | none => none
  | some (none, _) => some null
  | some (some n, a) => buildRoot a n

/-- The sequence that a text holds. A tag in front of it and an absent node count as a plain and as
an empty one. -/
def parseList? (text : String) : Option (List Yaml) :=
  match linked? text with
  | some (none, _) | some (some (.scalar _ true ""), _) => some []
  | some (some (.sequence p items), a) =>
    match buildRoot a (.sequence { p with tag := none } items) with
    | some (seq vs) => some vs
    | _ => none
  | _ => none

/-- The mapping that a text holds. A tag in front of it and an absent node count as a plain and as
an empty one. -/
def parseEntries? (text : String) : Option Entries :=
  match linked? text with
  | some (none, _) | some (some (.scalar _ true ""), _) => some []
  | some (some (.mapping p entries), a) =>
    match buildRoot a (.mapping { p with tag := none } entries) with
    | some (map es) => some es
    | _ => none
  | _ => none

end BuildMatrix.Yaml
