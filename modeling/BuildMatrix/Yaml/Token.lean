import BuildMatrix.Yaml.Folding

/-!
# Tokens of a YAML document

The scanner turns a document into tokens. Indentation becomes explicit: a block collection opens
where the column grows and closes where it shrinks. Whether a scalar is a key shows only at the
colon behind it, so the token that announces a key is inserted before tokens that are already
there. Any error means that the document is not YAML; no reason is given.
-/

namespace BuildMatrix.Yaml

/-- The tokens of a document. -/
inductive Token
  | versionDirective (major minor : Nat)
  | tagDirective (handle root : String)
  | documentStart
  | documentEnd
  | blockSequenceStart
  | blockMappingStart
  | blockEnd
  | flowSequenceStart
  | flowSequenceEnd
  | flowMappingStart
  | flowMappingEnd
  | blockEntry
  | flowEntry
  | key
  | value
  | alias (name : String)
  | anchor (name : String)
  | tag (handle suffix : String)
  | scalar (plain : Bool) (text : String)
  deriving DecidableEq, Repr

/-- A place in the document: the number of characters before it, its line and its column. -/
structure Place where
  index : Nat
  line : Nat
  column : Nat
  deriving Repr

/-- A token that may turn out to begin a key. -/
structure KeyMark where
  /-- Whether the token stands where only a key can stand. -/
  required : Bool
  /-- The number of tokens before it. -/
  position : Nat
  place : Place
  deriving Repr

/-- The state of the scanner. -/
structure Scanner where
  rest : List Char
  place : Place := ⟨0, 0, 0⟩
  tokens : Array Token := #[]
  /-- The column of the innermost block collection, minus one outside of all. -/
  indent : Int := -1
  outer : List Int := []
  /-- Whether a key may begin here. -/
  keyAllowed : Bool := true
  /-- The mark of the current level, and of each level around it. -/
  mark : Option KeyMark := none
  outerMarks : List (Option KeyMark) := []

namespace Scanner

/-- Whether the scanner is between brackets. -/
def inFlow (s : Scanner) : Bool :=
  !s.outerMarks.isEmpty

/-- The place after some more characters. -/
def advance (p : Place) : List Char → Place
  | [] => p
  | '\r' :: '\n' :: cs => advance ⟨p.index + 2, p.line + 1, 0⟩ cs
  | c :: cs =>
    if isBreak c then advance ⟨p.index + 1, p.line + 1, 0⟩ cs
    else advance ⟨p.index + 1, p.line, p.column + 1⟩ cs

/-- Moves on to the rest of the text. -/
def goTo (s : Scanner) (rest : List Char) : Scanner :=
  { s with
    rest := rest
    place := advance s.place (s.rest.take (s.rest.length - rest.length)) }

/-- Adds a token. -/
def push (s : Scanner) (t : Token) : Scanner :=
  { s with tokens := s.tokens.push t }

/-- Inserts a token before others. -/
def insertAt (s : Scanner) (position : Nat) (t : Token) : Scanner :=
  { s with tokens := s.tokens.insertIdxIfInBounds position t }

/-! ## Indentation and keys -/

/-- Opens a block collection if the column is beyond the current indentation. -/
def openBlock (s : Scanner) (column : Nat) (position : Nat) (t : Token) : Scanner :=
  if s.inFlow || column ≤ s.indent then s
  else { s.insertAt position t with indent := column, outer := s.indent :: s.outer }

/-- Closes the block collections that begin right of a column. -/
def closeBlocks (column : Int) : List Int → Int → Array Token → List Int × Int × Array Token
  | [], indent, tokens => ([], indent, tokens)
  | o :: outer, indent, tokens =>
    if column < indent then closeBlocks column outer o (tokens.push .blockEnd)
    else (o :: outer, indent, tokens)

/-- Closes the block collections that begin right of a column; between brackets there are
none to close. -/
def unrollTo (s : Scanner) (column : Int) : Scanner :=
  if s.inFlow then s
  else
    let (outer, indent, tokens) := closeBlocks column s.outer s.indent s.tokens
    { s with outer := outer, indent := indent, tokens := tokens }

/-- Gives up the mark of this level; a required key must not be given up. -/
def dropMark (s : Scanner) : Option Scanner :=
  if s.mark.any KeyMark.required then none else some { s with mark := none }

/-- Marks the next token as a possible key. -/
def saveMark (s : Scanner) : Option Scanner :=
  if s.keyAllowed then
    let required := !s.inFlow && s.indent == s.place.column
    s.dropMark.map fun s => { s with mark := some ⟨required, s.tokens.size, s.place⟩ }
  else some s

/-- Whether a mark is too far behind: a key is on one line and at most 1024 characters long. -/
def isStale (p : Place) (k : KeyMark) : Bool :=
  k.place.line < p.line || k.place.index + 1024 < p.index

/-- Gives up the marks that are too far behind. -/
def dropStale (s : Scanner) : Option Scanner :=
  let stale (m : Option KeyMark) := m.any (isStale s.place)
  if (s.mark :: s.outerMarks).any fun m => stale m && m.any KeyMark.required then none
  else
    let keep (m : Option KeyMark) := if stale m then none else m
    some { s with mark := keep s.mark, outerMarks := s.outerMarks.map keep }

/-! ## Names, tags and directives -/

/-- The characters of anchors, tag handles and directive names. -/
def isNameChar (c : Char) : Bool :=
  c.isAlphanum || c == '_' || c == '-'

/-- The name of an anchor or alias, and what follows it. -/
def takeName (cs : List Char) : Option (String × List Char) :=
  let name := cs.takeWhile isNameChar
  let rest := cs.dropWhile isNameChar
  let ended := atGap rest || rest.head?.any fun c => "?:,]\x7d%@`".toList.contains c
  if name.isEmpty || !ended then none else some (String.ofList name, rest)

/-- Whether a character may stand in the suffix of a tag. -/
def isTagChar (verbatim : Bool) (c : Char) : Bool :=
  isNameChar c || ";/?:@&=+$.%!~*'()".toList.contains c ||
    (verbatim && (c == ',' || c == '[' || c == ']'))

/-- The bytes that a row of percent escapes writes, and what follows it. -/
def takePercentBytes : List Char → Option (List UInt8 × List Char)
  | '%' :: a :: b :: rest =>
    match Text.readNat 16 [a, b] with
    | some n => (takePercentBytes rest).map fun (bs, after) => (n.toUInt8 :: bs, after)
    | none => none
  | '%' :: _ => none
  | cs => some ([], cs)

/-- Decodes the percent escapes of the suffix of a tag. -/
def decodePercents : Nat → List Char → Option (List Char)
  | 0, _ => none
  | _, [] => some []
  | fuel + 1, '%' :: rest =>
    match takePercentBytes ('%' :: rest) with
    | some (bytes, after) =>
      match String.fromUTF8? ⟨bytes.toArray⟩, decodePercents fuel after with
      | some s, some cs => some (s.toList ++ cs)
      | _, _ => none
    | none => none
  | fuel + 1, c :: rest => (decodePercents fuel rest).map (c :: ·)

/-- The suffix of a tag, and what follows it. -/
def takeTagSuffix (verbatim : Bool) (cs : List Char) : Option (String × List Char) :=
  let raw := cs.takeWhile (isTagChar verbatim)
  (decodePercents (raw.length + 1) raw).map fun decoded =>
    (String.ofList decoded, cs.dropWhile (isTagChar verbatim))

/-- The handle and the suffix of a tag after its exclamation mark, and what follows it. -/
def takeTag (cs : List Char) : Option (Token × List Char) :=
  match cs with
  | '<' :: rest =>
    match takeTagSuffix true rest with
    | some (suffix, '>' :: after) =>
      if suffix.isEmpty then none else some (.tag "" suffix, after)
    | _ => none
  | _ =>
    let name := cs.takeWhile isNameChar
    match cs.dropWhile isNameChar with
    | '!' :: rest =>
      match takeTagSuffix false rest with
      | some (suffix, after) =>
        if suffix.isEmpty then none
        else some (.tag ("!" ++ String.ofList name ++ "!") suffix, after)
      | none => none
    | _ =>
      match takeTagSuffix false cs with
      | some (suffix, after) =>
        if suffix.isEmpty then some (.tag "" "!", after) else some (.tag "!" suffix, after)
      | none => none

/-- A number of at most nine digits, and what follows it. -/
def takeShortNumber (cs : List Char) : Option (Nat × List Char) :=
  let digits := cs.takeWhile Char.isDigit
  if 9 < digits.length then none
  else (Text.readNat 10 digits).map (·, cs.dropWhile Char.isDigit)

/-- A directive after its percent sign, and what follows its line. -/
def takeDirective (cs : List Char) : Option (Token × List Char) :=
  let name := String.ofList (cs.takeWhile isNameChar)
  let rest := cs.dropWhile isNameChar
  let skip (cs : List Char) := cs.dropWhile isSpace
  let body : Option (Token × List Char) :=
    if !atGap rest then none
    else if name == "YAML" then
      match takeShortNumber (skip rest) with
      | some (major, '.' :: rest) =>
        (takeShortNumber rest).map fun (minor, rest) => (.versionDirective major minor, rest)
      | _ => none
    else if name == "TAG" then
      match skip rest with
      | '!' :: rest =>
        let inner := rest.takeWhile isNameChar
        let handle? := match rest.dropWhile isNameChar with
          | '!' :: after => some ("!" ++ String.ofList inner ++ "!", after)
          | after => if inner.isEmpty then some ("!", after) else none
        match handle? with
        | some (handle, after) =>
          if !(after.head?.any isSpace) then none
          else
            match takeTagSuffix true (skip after) with
            | some (root, after) =>
              if root.isEmpty || !atGap after then none
              else some (.tagDirective handle root, after)
            | none => none
        | none => none
      | _ => none
    else none
  match body with
  | none => none
  | some (t, rest) =>
    let rest := skip rest
    let rest := if rest.head? = some '#' then rest.dropWhile fun c => !isBreak c else rest
    if atLineEnd rest then some (t, ((takeBreak rest).map Prod.snd).getD rest) else none

/-! ## One token -/

/-- Skips white space and comments, and a byte order mark at the start of the document, which
takes a column. A line break outside of brackets allows a key to begin; at the start of a line a
tabulator is not white space. -/
def skipGap : Nat → Scanner → Scanner
  | 0, s => s
  | fuel + 1, s =>
    let blank (c : Char) := c == ' ' || ((s.inFlow || !s.keyAllowed) && c == '\t')
    let marked := s.place.index == 0 && s.rest.head? == some '\ufeff'
    let rest := (if marked then s.rest.tail else s.rest).dropWhile blank
    let rest := if rest.head? = some '#' then rest.dropWhile fun c => !isBreak c else rest
    match takeBreak rest with
    | some (_, after) =>
      let s := s.goTo after
      skipGap fuel (if s.inFlow then s else { s with keyAllowed := true })
    | none => s.goTo rest

/-- Adds a token that takes the next `n` characters. -/
def take (s : Scanner) (n : Nat) (t : Token) : Scanner :=
  (s.goTo (s.rest.drop n)).push t

/-- Ends the current line's structure before a directive or a document mark. -/
def beginDocumentPart (s : Scanner) : Option Scanner :=
  (s.unrollTo (-1)).dropMark.map fun s => { s with keyAllowed := false }

/-- An opening bracket. -/
def openFlow (s : Scanner) (t : Token) : Option Scanner :=
  s.saveMark.map fun s =>
    { s with keyAllowed := true, mark := none, outerMarks := s.mark :: s.outerMarks }.take 1 t

/-- A closing bracket. -/
def closeFlow (s : Scanner) (t : Token) : Option Scanner :=
  s.dropMark.map fun s =>
    let s := match s.outerMarks with
      | m :: ms => { s with mark := m, outerMarks := ms }
      | [] => s
    { s with keyAllowed := false }.take 1 t

/-- A comma between brackets. -/
def flowEntry (s : Scanner) : Option Scanner :=
  s.dropMark.map fun s => { s with keyAllowed := true }.take 1 .flowEntry

/-- The dash of a block sequence. -/
def blockEntry (s : Scanner) : Option Scanner :=
  if !s.inFlow && !s.keyAllowed then none
  else
    (s.openBlock s.place.column s.tokens.size .blockSequenceStart).dropMark.map fun s =>
      { s with keyAllowed := true }.take 1 .blockEntry

/-- The question mark before a key. -/
def explicitKey (s : Scanner) : Option Scanner :=
  if !s.inFlow && !s.keyAllowed then none
  else
    (s.openBlock s.place.column s.tokens.size .blockMappingStart).dropMark.map fun s =>
      { s with keyAllowed := !s.inFlow }.take 1 .key

/-- The colon before a value. If a possible key is marked, it becomes one. -/
def valueMark (s : Scanner) : Option Scanner :=
  match s.mark with
  | some k =>
    let s := (s.insertAt k.position .key).openBlock k.place.column k.position .blockMappingStart
    some ({ s with mark := none, keyAllowed := false }.take 1 .value)
  | none =>
    if s.inFlow then some ({ s with keyAllowed := false }.take 1 .value)
    else if !s.keyAllowed then none
    else
      let s := s.openBlock s.place.column s.tokens.size .blockMappingStart
      some ({ s with keyAllowed := true }.take 1 .value)

/-- A token that may begin a key and after which none may begin. -/
def keyable (s : Scanner) (body : Option (Token × List Char)) : Option Scanner :=
  match s.saveMark, body with
  | some s, some (t, rest) => some (({ s with keyAllowed := false }.goTo rest).push t)
  | _, _ => none

/-- A block scalar; a key may begin after it. -/
def blockScalar (s : Scanner) (literal : Bool) : Option Scanner :=
  match s.dropMark, takeBlock literal s.indent s.rest.tail with
  | some s, some (cs, rest) =>
    some (({ s with keyAllowed := true }.goTo rest).push (.scalar false (String.ofList cs)))
  | _, _ => none

/-- A quoted scalar. -/
def quotedScalar (s : Scanner) (single : Bool) : Option Scanner :=
  let body :=
    takeQuoted single (s.rest.length + 1) (s.place.column + 1) (.spaces []) s.rest.tail
  s.keyable (body.map fun (cs, rest) => (.scalar false (String.ofList cs), rest))

/-- A plain scalar; a key may begin after it if it ends at a later line. -/
def plainScalar (s : Scanner) : Option Scanner :=
  match takePlain s.inFlow (s.indent + 1).toNat (s.rest.length + 1) s.place.column (.spaces [])
      s.rest with
  | none => none
  | some (cs, gap, rest) =>
    (s.keyable (some (.scalar true (String.ofList cs), rest))).map fun s =>
      { s with keyAllowed := gap.isBroken || s.keyAllowed }

/-- Whether a plain scalar may begin with these characters. -/
def beginsPlain (flow : Bool) : List Char → Bool
  | [] => false
  | c :: rest =>
    (!isSpace c && !isBreak c && !"-?:,[]\x7b\x7d#&*!|>'\"%@`".toList.contains c) ||
      (c == '-' && !rest.head?.any isSpace) ||
      (!flow && (c == '?' || c == ':') && !atGap rest)

/-- The token at the start of the text, which begins with `c`. -/
def scanToken (s : Scanner) (c : Char) : Option Scanner :=
  let after := s.rest.tail
  if s.place.column = 0 ∧ c = '%' then
    match s.beginDocumentPart, takeDirective after with
    | some s, some (t, rest) => some ((s.goTo rest).push t)
    | _, _ => none
  else if s.place.column = 0 ∧ atDocumentMark s.rest then
    s.beginDocumentPart.map fun s =>
      s.take 3 (if c = '-' then .documentStart else .documentEnd)
  else if c = '[' then s.openFlow .flowSequenceStart
  else if c = '\x7b' then s.openFlow .flowMappingStart
  else if c = ']' then s.closeFlow .flowSequenceEnd
  else if c = '\x7d' then s.closeFlow .flowMappingEnd
  else if c = ',' then s.flowEntry
  else if c = '-' ∧ atGap after then s.blockEntry
  else if c = '?' ∧ (s.inFlow ∨ atGap after) then s.explicitKey
  else if c = ':' ∧ (s.inFlow ∨ atGap after) then s.valueMark
  else if c = '*' then s.keyable ((takeName after).map fun (n, rest) => (.alias n, rest))
  else if c = '&' then s.keyable ((takeName after).map fun (n, rest) => (.anchor n, rest))
  else if c = '!' then
    s.keyable <| (takeTag after).filter fun (_, rest) =>
      atGap rest || (s.inFlow && rest.head? == some ',')
  else if c = '|' ∧ !s.inFlow then s.blockScalar true
  else if c = '>' ∧ !s.inFlow then s.blockScalar false
  else if c = '\'' then s.quotedScalar true
  else if c = '"' then s.quotedScalar false
  else if beginsPlain s.inFlow s.rest then s.plainScalar
  else none

/-- The end of the document, where the last line ends and every block closes. -/
def finish (s : Scanner) : Option (List Token) :=
  let place : Place :=
    if s.place.column = 0 then s.place else ⟨s.place.index, s.place.line + 1, 0⟩
  (({ s with place := place } : Scanner).unrollTo (-1)).dropMark.map fun s => s.tokens.toList

/-- Scans the rest of the text; every token takes at least one character. -/
def run : Nat → Scanner → Option (List Token)
  | 0, _ => none
  | fuel + 1, s =>
    match (skipGap (s.rest.length + 1) s).dropStale with
    | none => none
    | some s =>
      let s := s.unrollTo s.place.column
      match s.rest with
      | [] => s.finish
      | c :: _ =>
        match s.scanToken c with
        | some s => run fuel s
        | none => none

end Scanner

/-- Whether a character may stand in a document. -/
def isDocumentChar (c : Char) : Bool :=
  let n := c.toNat
  n == 9 || n == 10 || n == 13 || (0x20 ≤ n && n ≤ 0x7e) || n == 0x85 ||
    (0xa0 ≤ n && n ≤ 0xfffd) || 0x10000 ≤ n

/-- The tokens of a document. -/
def tokens? (text : String) : Option (List Token) :=
  let cs := text.toList
  if cs.all isDocumentChar then Scanner.run (cs.length + 1) { rest := cs } else none

end BuildMatrix.Yaml
