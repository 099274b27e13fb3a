import BuildMatrix.Yaml.Token

/-!
# Nodes of a YAML document

A node is a scalar, a sequence, a mapping or a reference to an anchored node. `document?` reads
the one document that a text may hold; a text without any node holds none.
-/

namespace BuildMatrix.Yaml

/-- The anchor and the tag of a node. -/
structure Properties where
  anchor : Option String := none
  tag : Option String := none
  deriving Repr

/-- A node that refers to others by values of `ref`; entries of a mapping are pairs of a key and
a value. -/
inductive Node (ref : Type)
  | alias (target : ref)
  | scalar (properties : Properties) (plain : Bool) (text : String)
  | sequence (properties : Properties) (items : List (Node ref))
  | mapping (properties : Properties) (entries : List (Node ref × Node ref))
  deriving Inhabited

/-- A node as it is written, where references are the names of anchors. -/
abbrev NamedNode :=
  Node String

namespace Node

/-- The node that stands where nothing is written. -/
def empty : NamedNode :=
  scalar {} true ""

/-- The handles of tags with what they stand for. -/
abbrev Handles :=
  List (String × String)

/-- The handles known in every document. -/
def standardHandles : Handles :=
  [("!", "!"), ("!!", "tag:yaml.org,2002:")]

/-- The tag that a handle and a suffix form. -/
def tagOf? (handles : Handles) (handle suffix : String) : Option String :=
  if handle.isEmpty then some suffix else (handles.lookup handle).map (· ++ suffix)

/-- The anchor and the tag in front of a node, in either order. -/
def readProperties (handles : Handles) (ts : List Token) : Option (Properties × List Token) :=
  match ts with
  | .anchor name :: .tag h s :: rest =>
    (tagOf? handles h s).map fun tag => (⟨some name, some tag⟩, rest)
  | .anchor name :: rest => some (⟨some name, none⟩, rest)
  | .tag h s :: .anchor name :: rest =>
    (tagOf? handles h s).map fun tag => (⟨some name, some tag⟩, rest)
  | .tag h s :: rest => (tagOf? handles h s).map fun tag => (⟨none, some tag⟩, rest)
  | _ => some ({}, ts)

/-- Where a node stands, which decides what may follow. -/
inductive Place
  | block
  | blockValue
  | flow
  deriving DecidableEq

/-- Whether an item or value of a block collection is left out before this token. -/
def isAbsent (indentless : Bool) : List Token → Bool
  | .blockEntry :: _ => true
  | .blockEnd :: _ => true
  | .key :: _ | .value :: _ => indentless
  | _ => false

/-- Whether a key or value of a block mapping is left out before this token. -/
def isAbsentInMapping : List Token → Bool
  | .key :: _ | .value :: _ | .blockEnd :: _ => true
  | _ => false

mutual

/-- A node. -/
def read (handles : Handles) : Nat → Place → List Token → Option (NamedNode × List Token)
  | 0, _, _ => none
  | _, _, .alias name :: ts => some (.alias name, ts)
  | fuel + 1, place, ts =>
    match readProperties handles ts with
    | none => none
    | some (p, ts) =>
      match ts with
      | .blockEntry :: _ =>
        if place = .blockValue then
          (readEntries handles fuel true ts).map fun (items, ts) => (.sequence p items, ts)
        else orEmpty p ts
      | .scalar plain text :: ts =>
        let tag := if p.tag = some "!" then none else p.tag
        some (.scalar { p with tag := tag } plain text, ts)
      | .flowSequenceStart :: ts =>
        (readFlowItems handles fuel true ts).map fun (items, ts) => (.sequence p items, ts)
      | .flowMappingStart :: ts =>
        (readFlowPairs handles fuel true ts).map fun (entries, ts) => (.mapping p entries, ts)
      | .blockSequenceStart :: ts =>
        if place = .flow then orEmpty p (.blockSequenceStart :: ts)
        else
          (readEntries handles fuel false ts).map fun (items, ts) => (.sequence p items, ts)
      | .blockMappingStart :: ts =>
        if place = .flow then orEmpty p (.blockMappingStart :: ts)
        else
          (readPairs handles fuel ts).map fun (entries, ts) => (.mapping p entries, ts)
      | ts => orEmpty p ts

/-- An empty node if there is an anchor or a tag in front. -/
def orEmpty (p : Properties) (ts : List Token) : Option (NamedNode × List Token) :=
  if p.anchor.isSome || p.tag.isSome then some (.scalar p true "", ts) else none

/-- The items of a block sequence; one without indentation of its own ends before the first
token that is no dash. -/
def readEntries (handles : Handles) :
    Nat → Bool → List Token → Option (List NamedNode × List Token)
  | 0, _, _ => none
  | fuel + 1, indentless, ts =>
    match ts with
    | .blockEntry :: ts =>
      let item :=
        if isAbsent indentless ts then some (empty, ts) else read handles fuel .block ts
      match item with
      | none => none
      | some (item, ts) =>
        (readEntries handles fuel indentless ts).map fun (items, ts) => (item :: items, ts)
    | .blockEnd :: rest => if indentless then some ([], ts) else some ([], rest)
    | _ => if indentless then some ([], ts) else none

/-- The entries of a block mapping. -/
def readPairs (handles : Handles) :
    Nat → List Token → Option (List (NamedNode × NamedNode) × List Token)
  | 0, _ => none
  | fuel + 1, ts =>
    match ts with
    | .key :: ts =>
      let part (ts : List Token) :=
        if isAbsentInMapping ts then some (empty, ts) else read handles fuel .blockValue ts
      match part ts with
      | none => none
      | some (k, ts) =>
        let v := match ts with
          | .value :: ts => part ts
          | ts => some (empty, ts)
        match v with
        | none => none
        | some (v, ts) =>
          (readPairs handles fuel ts).map fun (entries, ts) => ((k, v) :: entries, ts)
    | .blockEnd :: ts => some ([], ts)
    | _ => none

/-- The items of a sequence between brackets; an item may be a mapping with a single entry. -/
def readFlowItems (handles : Handles) :
    Nat → Bool → List Token → Option (List NamedNode × List Token)
  | 0, _, _ => none
  | _, _, .flowSequenceEnd :: ts => some ([], ts)
  | fuel + 1, first, ts =>
    match (if first then some ts else afterComma ts) with
    | none => none
    | some (.flowSequenceEnd :: ts) => some ([], ts)
    | some (.key :: ts) =>
      match readFlowKey handles fuel ts with
      | none => none
      | some (k, ts) =>
        match readFlowValue handles fuel .flowSequenceEnd ts with
        | none => none
        | some (v, ts) =>
          (readFlowItems handles fuel false ts).map fun (items, ts) =>
            (.mapping {} [(k, v)] :: items, ts)
    | some ts =>
      match read handles fuel .flow ts with
      | none => none
      | some (item, ts) =>
        (readFlowItems handles fuel false ts).map fun (items, ts) => (item :: items, ts)

/-- The key of a single entry in a sequence between brackets. An absent key takes the token in
its place. -/
def readFlowKey (handles : Handles) : Nat → List Token → Option (NamedNode × List Token)
  | 0, _ => none
  | fuel + 1, ts =>
    match ts with
    | .value :: ts | .flowEntry :: ts | .flowSequenceEnd :: ts => some (empty, ts)
    | ts => read handles fuel .flow ts

/-- The value of an entry between brackets. -/
def readFlowValue (handles : Handles) :
    Nat → Token → List Token → Option (NamedNode × List Token)
  | 0, _, _ => none
  | fuel + 1, close, ts =>
    match ts with
    | .value :: ts =>
      if ts.head? = some .flowEntry ∨ ts.head? = some close then some (empty, ts)
      else read handles fuel .flow ts
    | ts => some (empty, ts)

/-- The entries of a mapping between brackets. -/
def readFlowPairs (handles : Handles) :
    Nat → Bool → List Token → Option (List (NamedNode × NamedNode) × List Token)
  | 0, _, _ => none
  | _, _, .flowMappingEnd :: ts => some ([], ts)
  | fuel + 1, first, ts =>
    let next (k v : NamedNode) (ts : List Token) :=
      (readFlowPairs handles fuel false ts).map fun (entries, ts) => ((k, v) :: entries, ts)
    match (if first then some ts else afterComma ts) with
    | none => none
    | some (.flowMappingEnd :: ts) => some ([], ts)
    | some (.key :: ts) =>
      let k := match ts with
        | .value :: _ | .flowEntry :: _ | .flowMappingEnd :: _ => some (empty, ts)
        | _ => read handles fuel .flow ts
      match k with
      | none => none
      | some (k, ts) =>
        match readFlowValue handles fuel .flowMappingEnd ts with
        | none => none
        | some (v, ts) => next k v ts
    | some ts =>
      match read handles fuel .flow ts with
      | none => none
      | some (k, ts) => next k empty ts

/-- What follows a comma. -/
def afterComma : List Token → Option (List Token)
  | .flowEntry :: ts => some ts
  | _ => none

end

/-- The tag handles that the directives before a document declare, and what follows them. A
version must be 1.1 or 1.2, and nothing may be declared twice. -/
def readDirectives : Bool → Handles → List Token → Option (Handles × List Token)
  | versioned, handles, .versionDirective major minor :: ts =>
    if versioned ∨ major ≠ 1 ∨ (minor ≠ 1 ∧ minor ≠ 2) then none
    else readDirectives true handles ts
  | versioned, handles, .tagDirective handle root :: ts =>
    if (handles.lookup handle).isSome then none
    else readDirectives versioned ((handle, root) :: handles) ts
  | _, handles, ts => some (handles, ts)

/-- The node after the start of a document. -/
def readContent (handles : Handles) (ts : List Token) : Option (NamedNode × List Token) :=
  match ts with
  | [] | .versionDirective .. :: _ | .tagDirective .. :: _ | .documentStart :: _
  | .documentEnd :: _ => some (empty, ts)
  | _ => read handles (4 * ts.length + 4) .block ts

/-- The first document of a stream, if it has any, and what follows it. -/
def readDocument (ts : List Token) : Option (Option NamedNode × List Token) :=
  match readDirectives false [] ts with
  | none => none
  | some (declared, rest) =>
    let handles := declared ++ standardHandles
    match rest with
    | [] => if ts.isEmpty then some (none, []) else none
    | .documentStart :: rest => (readContent handles rest).map fun (n, ts) => (some n, ts)
    | _ =>
      if rest.length < ts.length then none
      else (read handles (4 * ts.length + 4) .block ts).map fun (n, ts) => (some n, ts)

end Node

/-- The document that a text holds; the inner option is empty for a text without a node. Two
documents, or anything else after the first one, are an error. -/
def document? (text : String) : Option (Option NamedNode) :=
  match tokens? text with
  | none => none
  | some ts =>
    match Node.readDocument ts with
    | none => none
    | some (n, rest) => if rest.all (· == .documentEnd) then some n else none

end BuildMatrix.Yaml
