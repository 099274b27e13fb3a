import BuildMatrix.Text.Number

/-!
# Scalars over several lines

A scalar may run over several lines. Single line breaks inside plain and quoted scalars become
spaces, block scalars keep or fold theirs. The readers of this file take the text of a scalar from
the front of a document and return what follows it; they count columns because indentation ends a
scalar.
-/

namespace BuildMatrix.Yaml

/-- Whether a character ends a line. -/
def isBreak (c : Char) : Bool :=
  c == '\n' || c == '\r' || c == '\u0085' || c == '\u2028' || c == '\u2029'

/-- Whether a character is a space or a tabulator. -/
def isSpace (c : Char) : Bool :=
  c == ' ' || c == '\t'

/-- Whether the text ends here or goes on with a space, a tabulator or a line break. -/
def atGap : List Char → Bool
  | [] => true
  | c :: _ => isSpace c || isBreak c

/-- Whether the line ends here. -/
def atLineEnd : List Char → Bool
  | [] => true
  | c :: _ => isBreak c

/-- Whether three dashes or three dots stand here alone; at the start of a line they end a
document. -/
def atDocumentMark : List Char → Bool
  | '-' :: '-' :: '-' :: rest => atGap rest
  | '.' :: '.' :: '.' :: rest => atGap rest
  | _ => false

/-- The line break at the front of a text as it is kept, and what follows it. -/
def takeBreak : List Char → Option (List Char × List Char)
  | '\r' :: '\n' :: rest => some (['\n'], rest)
  | c :: rest =>
    if c = '\u2028' ∨ c = '\u2029' then some ([c], rest)
    else if isBreak c then some (['\n'], rest)
    else none
  | [] => none

/-- The white space between two words of a scalar: spaces on one line, or line breaks. -/
inductive Gap
  | spaces (cs : List Char)
  | breaks (first : List Char) (more : List Char)

namespace Gap

/-- Adds a space or a tabulator; after a line break it is indentation. -/
def addSpace (c : Char) : Gap → Gap
  | spaces cs => spaces (cs ++ [c])
  | breaks first more => breaks first more

/-- Adds a line break. Spaces before the first one are dropped. -/
def addBreak (b : List Char) : Gap → Gap
  | spaces _ => breaks b []
  | breaks first more => breaks first (more ++ b)

/-- What the gap becomes in the value of a scalar: a single line break is a space, and the first
of several is dropped. -/
def text : Gap → List Char
  | spaces cs => cs
  | breaks ['\n'] [] => [' ']
  | breaks ['\n'] more => more
  | breaks first more => first ++ more

/-- Whether the gap holds a line break. -/
def isBroken : Gap → Bool
  | spaces _ => false
  | breaks .. => true

/-- Whether there is no gap. -/
def isEmpty : Gap → Bool
  | spaces cs => cs.isEmpty
  | breaks .. => false

end Gap

/-! ## Quoted scalars -/

/-- The characters that a letter stands for after a backslash. -/
def escapeOf? : Char → Option Char
  | '0' => some '\x00'
  | 'a' => some '\x07'
  | 'b' => some '\x08'
  | 't' | '\t' => some '\t'
  | 'n' => some '\n'
  | 'v' => some '\x0b'
  | 'f' => some '\x0c'
  | 'r' => some '\r'
  | 'e' => some '\x1b'
  | ' ' => some ' '
  | '"' => some '"'
  | '/' => some '/'
  | '\\' => some '\\'
  | 'N' => some '\u0085'
  | '_' => some '\u00a0'
  | 'L' => some '\u2028'
  | 'P' => some '\u2029'
  | _ => none

/-- The number of hexadecimal digits after `\x`, `\u` and `\U`. -/
def escapeLength : Char → Nat
  | 'x' => 2
  | 'u' => 4
  | 'U' => 8
  | _ => 0

/-- The character with the code point that hexadecimal digits write. -/
def codePoint? (digits : List Char) : Option Char :=
  match Text.readNat 16 digits with
  | some n => if n.isValidChar then some (Char.ofNat n) else none
  | none => none

/-- The value of an escape sequence after its backslash, and what follows it. -/
def takeEscape : List Char → Option (Char × List Char)
  | [] => none
  | c :: rest =>
    if escapeLength c = 0 then (escapeOf? c).map (·, rest)
    else if (rest.take (escapeLength c)).length < escapeLength c then none
    else (codePoint? (rest.take (escapeLength c))).map (·, rest.drop (escapeLength c))

/-- The value of a quoted scalar after its opening quote, and what follows its closing quote.
`column` is that of the next character and `gap` the white space before it. -/
def takeQuoted (single : Bool) : Nat → Nat → Gap → List Char → Option (List Char × List Char)
  | 0, _, _, _ => none
  | _, _, _, [] => none
  | fuel + 1, column, gap, c :: rest =>
    match takeBreak (c :: rest) with
    | some (b, rest) => takeQuoted single fuel 0 (gap.addBreak b) rest
    | none =>
      if isSpace c then takeQuoted single fuel (column + 1) (gap.addSpace c) rest
      else if column = 0 ∧ atDocumentMark (c :: rest) then none
      else
        let go (column : Nat) (gap' : Gap) (out rest : List Char) :=
          (takeQuoted single fuel column gap' rest).map fun (cs, after) =>
            (gap.text ++ out ++ cs, after)
        let none' := Gap.spaces []
        match single, c, rest with
        | true, '\'', '\'' :: rest => go (column + 2) none' ['\''] rest
        | true, '\'', rest => some (gap.text, rest)
        | false, '"', rest => some (gap.text, rest)
        | false, '\\', rest =>
          match takeBreak rest with
          | some (_, rest) => go 0 (.breaks [] []) [] rest
          | none =>
            match takeEscape rest with
            | some (e, after) => go (column + 1 + (rest.length - after.length)) none' [e] after
            | none => none
        | _, c, rest => go (column + 1) none' [c] rest

/-! ## Plain scalars -/

/-- A character that ends a scalar between brackets. -/
def isFlowMark (c : Char) : Bool :=
  c == ',' || c == '[' || c == ']' || c == '\x7b' || c == '\x7d'

/-- The value of a plain scalar, the gap before the character that ends it, and the text from
there on. It ends before a comment, a colon with a gap behind it, a document mark, between
brackets before one of their marks, and elsewhere before a line with less than `indent`
columns of indentation. -/
def takePlain (flow : Bool) (indent : Nat) :
    Nat → Nat → Gap → List Char → Option (List Char × Gap × List Char)
  | 0, _, gap, cs => some ([], gap, cs)
  | _, _, gap, [] => some ([], gap, [])
  | fuel + 1, column, gap, c :: rest =>
    let done := some ([], gap, c :: rest)
    match takeBreak (c :: rest) with
    | some (b, rest) => takePlain flow indent fuel 0 (gap.addBreak b) rest
    | none =>
      if isSpace c then
        if c = '\t' ∧ gap.isBroken ∧ column < indent then none
        else takePlain flow indent fuel (column + 1) (gap.addSpace c) rest
      else if gap.isBroken ∧ !flow ∧ column < indent then done
      else if column = 0 ∧ atDocumentMark (c :: rest) then done
      else if c = '#' ∧ !gap.isEmpty then done
      else if flow ∧ c = ':' ∧ (rest.head?.any fun d => isFlowMark d || d == '?') then none
      else if (c = ':' ∧ atGap rest) ∨ (flow ∧ isFlowMark c) then done
      else
        (takePlain flow indent fuel (column + 1) (.spaces []) rest).map fun (cs, gap', after) =>
          (gap.text ++ c :: cs, gap', after)

/-! ## Block scalars -/

/-- What happens to the line breaks at the end of a block scalar. -/
inductive Chomp
  | strip
  | clip
  | keep
  deriving DecidableEq

/-- The position inside a block scalar: the column, the greatest column that an empty line
reached, the line breaks read and the text left. -/
structure BlockGap where
  column : Nat
  widest : Nat
  breaks : List Char
  rest : List Char

/-- Reads indentation and empty lines up to a line with content. A tabulator inside the
indentation is an error. While the indentation is not known, `indent` is zero. -/
def takeBlockGap (indent : Nat) : Nat → Nat → Nat → List Char → List Char → Option BlockGap
  | 0, column, widest, breaks, cs => some ⟨column, widest, breaks, cs⟩
  | fuel + 1, column, widest, breaks, cs =>
    let inside : Bool := indent = 0 || column < indent
    match cs with
    | ' ' :: rest =>
      if inside then takeBlockGap indent fuel (column + 1) (max widest (column + 1)) breaks rest
      else some ⟨column, widest, breaks, cs⟩
    | '\t' :: _ => if inside then none else some ⟨column, widest, breaks, cs⟩
    | _ =>
      match takeBreak cs with
      | some (b, rest) => takeBlockGap indent fuel 0 widest (breaks ++ b) rest
      | none => some ⟨column, widest, breaks, cs⟩

/-- The lines of a block scalar from a line with content on. `lead` is the line break before it,
`afterBlank` says whether the line before it began with white space. -/
def takeBlockLines (literal : Bool) (indent : Nat) (chomp : Chomp) :
    Nat → List Char → Bool → BlockGap → Option (List Char × List Char)
  | 0, _, _, gap => some ([], gap.rest)
  | fuel + 1, lead, afterBlank, gap =>
    if gap.column ≠ indent ∨ gap.rest.isEmpty then
      let tail := match chomp with
        | .strip => []
        | .clip => lead
        | .keep => lead ++ gap.breaks
      some (tail, gap.rest)
    else
      let blank := gap.rest.head?.any isSpace
      let joint :=
        if !literal && lead == ['\n'] && !afterBlank && !blank then
          if gap.breaks.isEmpty then [' '] else gap.breaks
        else lead ++ gap.breaks
      let line := gap.rest.takeWhile fun c => !isBreak c
      let after := gap.rest.dropWhile fun c => !isBreak c
      let (lead, after) := (takeBreak after).getD ([], after)
      match takeBlockGap indent (after.length + 1) 0 0 [] after with
      | none => none
      | some gap =>
        (takeBlockLines literal indent chomp fuel lead blank gap).map fun (cs, rest) =>
          (joint ++ line ++ cs, rest)

/-- The marks after the sign of a block scalar: the treatment of the last line breaks and the
indentation, each at most once and in any order. -/
def takeBlockMarks (cs : List Char) : Option (Chomp × Option Nat × List Char) :=
  let chomp? (c : Char) : Option Chomp :=
    if c = '+' then some .keep else if c = '-' then some .strip else none
  match cs with
  | [] => some (.clip, none, [])
  | c :: rest =>
    match chomp? c with
    | some chomp =>
      match rest with
      | d :: rest' =>
        if d = '0' then none
        else if d.isDigit then some (chomp, some (d.toNat - 48), rest')
        else some (chomp, none, rest)
      | [] => some (chomp, none, [])
    | none =>
      if c = '0' then none
      else if c.isDigit then
        match rest with
        | d :: rest' =>
          match chomp? d with
          | some chomp => some (chomp, some (c.toNat - 48), rest')
          | none => some (.clip, some (c.toNat - 48), rest)
        | [] => some (.clip, some (c.toNat - 48), [])
      else some (.clip, none, cs)

/-- The value of a block scalar after its sign, and what follows it. `outer` is the indentation
of the collection around it, minus one for none. -/
def takeBlock (literal : Bool) (outer : Int) (cs : List Char) : Option (List Char × List Char) :=
  match takeBlockMarks cs with
  | none => none
  | some (chomp, given, rest) =>
    let rest := rest.dropWhile isSpace
    let rest := if rest.head? = some '#' then rest.dropWhile fun c => !isBreak c else rest
    if !atLineEnd rest then none
    else
      let rest := ((takeBreak rest).map Prod.snd).getD rest
      let known := (given.map fun n => n + outer.toNat).getD 0
      match takeBlockGap known (rest.length + 1) 0 0 [] rest with
      | none => none
      | some gap =>
        let indent := if known = 0 then max gap.widest (max (outer + 1).toNat 1) else known
        takeBlockLines literal indent chomp (rest.length + 1) [] false gap

end BuildMatrix.Yaml
