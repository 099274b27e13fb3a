import BuildMatrix.Script.Basic

/-!
# Reading scripts

A script is cut into words, operators and redirects, which are then grouped into commands.
-/

namespace BuildMatrix.Script

/-! ## Tokens -/

/-- A token of a script. -/
inductive Token
  | word (w : Word)
  | operator (s : String)
  | redirect (r : Redirect)
  deriving DecidableEq, Repr

/-- Whether a character may stand in the name of a parameter. -/
def isNameChar (c : Char) : Bool :=
  c.isAlphanum || c = '_'

/-- Whether a character names a parameter by itself. -/
def isSpecial (c : Char) : Bool :=
  c.isDigit || c ∈ ['#', '@', '*', '?']

/-- The parameter named at the start of a text, and what is after it. -/
def readParameter? : List Char → Option (String × List Char)
  | [] => none
  | '\x7b' :: cs =>
    match cs.dropWhile (· ≠ '\x7d') with
    | [] => none
    | _ :: rest => some (String.ofList (cs.takeWhile (· ≠ '\x7d')), rest)
  | c :: cs =>
    if isSpecial c then some (String.singleton c, cs)
    else if isNameChar c then
      some (String.ofList (c :: cs.takeWhile isNameChar), cs.dropWhile isNameChar)
    else none

/-- What is after a parameter is shorter than the text. -/
theorem length_of_readParameter? {cs rest : List Char} {name : String}
    (h : readParameter? cs = some (name, rest)) : rest.length < cs.length := by
  have shorter (p : Char → Bool) (xs : List Char) : (xs.dropWhile p).length ≤ xs.length :=
    (List.dropWhile_sublist p).length_le
  unfold readParameter? at h
  split at h
  · simp at h
  · rename_i cs
    have bound := shorter (fun x => decide (x ≠ '\x7d')) cs
    split at h
    · simp at h
    · rename_i rest' cut
      rw [cut] at bound
      simp only [Option.some.injEq, Prod.mk.injEq] at h
      rw [← h.2]
      simp only [List.length_cons] at bound ⊢
      omega
  · rename_i c cs _
    have bound := shorter isNameChar cs
    split at h
    · simp only [Option.some.injEq, Prod.mk.injEq] at h
      simp [← h.2]
    · split at h
      · simp only [Option.some.injEq, Prod.mk.injEq] at h
        rw [← h.2]
        simp only [List.length_cons]
        omega
      · simp at h

/-- What the characters of a script belong to. -/
inductive Mode
  | plain
  | single
  | double
  | comment
  deriving DecidableEq, Repr

/-- Adds a part to the word that is being read. -/
def extend (w : Option Word) (p : Part) : Option Word :=
  some (w.getD [] ++ [p])

/-- The token of the word that is being read. -/
def flush (w : Option Word) : List Token :=
  (w.map Token.word).toList

/-- The tokens of a redirect to a stream. The word before it names the stream it is about, if it is
a digit. -/
def redirect (w : Option Word) (target : Char) : List Token :=
  let digit (c : Char) := c.toNat - '0'.toNat
  match w with
  | some [.char c false] =>
    if c.isDigit then [.redirect ⟨digit c, digit target⟩] else flush w ++ [.redirect ⟨1, digit target⟩]
  | w => flush w ++ [.redirect ⟨1, digit target⟩]

/-- The tokens of a script. There are none if a quote is left open, or if something is used that
commands do not know. -/
def scan (mode : Mode) (w : Option Word) (cs : List Char) : Option (List Token) :=
  match mode, cs with
  | .plain, [] => some (flush w)
  | .comment, [] => some []
  | .single, [] | .double, [] => none
  | .comment, c :: rest =>
    if c = '\n' then (scan .plain none rest).map (.operator "\n" :: ·) else scan .comment w rest
  | .single, c :: rest =>
    if c = '\'' then scan .plain w rest else scan .single (extend w (.char c true)) rest
  | .double, '\\' :: c :: rest =>
    if c = '\n' then scan .double w rest
    else if c ∈ ['$', '\x60', '"', '\\'] then scan .double (extend w (.char c true)) rest
    else scan .double (extend (extend w (.char '\\' true)) (.char c true)) rest
  | .plain, '\\' :: c :: rest =>
    if c = '\n' then scan .plain w rest else scan .plain (extend w (.char c true)) rest
  | .plain, '>' :: '&' :: c :: rest =>
    if c.isDigit then (scan .plain none rest).map (redirect w c ++ ·) else none
  | .plain, '&' :: '&' :: rest => (scan .plain none rest).map (flush w ++ .operator "&&" :: ·)
  | .plain, '|' :: '|' :: rest => (scan .plain none rest).map (flush w ++ .operator "||" :: ·)
  | .plain, ';' :: ';' :: rest => (scan .plain none rest).map (flush w ++ .operator ";;" :: ·)
  | mode, '$' :: rest =>
    match h : readParameter? rest with
    | some (name, rest') =>
      have := length_of_readParameter? h
      scan mode (extend w (.param name (mode = .double))) rest'
    | none => scan mode (extend w (.char '$' true)) rest
  | .double, c :: rest =>
    if c = '"' then scan .plain w rest else scan .double (extend w (.char c true)) rest
  | .plain, c :: rest =>
    if c = ' ' || c = '\t' then (scan .plain none rest).map (flush w ++ ·)
    else if c = '#' && w.isNone then scan .comment none rest
    else if c = '"' then scan .double (some (w.getD [])) rest
    else if c = '\'' then scan .single (some (w.getD [])) rest
    else if c ∈ ['\n', ';', '|', '(', ')'] then
      (scan .plain none rest).map (flush w ++ .operator (String.singleton c) :: ·)
    else if c ∈ ['&', '<', '>', '\x60'] then none
    else scan .plain (extend w (.char c false)) rest
termination_by cs.length

/-! ## Commands -/

/-- The words and redirects at the start of tokens, and what is after them. -/
def readSimple : List Token → (List Word × List Redirect) × List Token
  | .word w :: ts =>
    let ((ws, rs), rest) := readSimple ts
    ((w :: ws, rs), rest)
  | .redirect r :: ts =>
    let ((ws, rs), rest) := readSimple ts
    ((ws, r :: rs), rest)
  | ts => (([], []), ts)

/-- Drops the line breaks at the start of tokens. -/
def skipLines (ts : List Token) : List Token :=
  ts.dropWhile (· = .operator "\n")

/-- The patterns of a branch up to the closing bracket, and what is after it. -/
def readPatterns? : List Token → Option (List Word × List Token)
  | .word w :: .operator ")" :: ts => some ([w], ts)
  | .word w :: .operator "|" :: ts => (readPatterns? ts).map fun (ws, rest) => (w :: ws, rest)
  | _ => none

mutual

/-- Reads commands up to the end of a branch or of the script. Each command takes some of the
tokens, so `fuel` as large as their number is enough. -/
def readSteps? (fuel : Nat) (link : Link) (ts : List Token) :
    Option (List (Link × Command) × List Token) :=
  match fuel, ts with
  | _, [] => if link = .always then some ([], []) else none
  | 0, _ => none
  | fuel + 1, .operator o :: rest =>
    if o = "\n" then readSteps? fuel link rest
    else if o = ";;" then if link = .always then some ([], ts) else none
    else none
  | fuel + 1, ts =>
    if ts.head? = some (.word (wordOf "esac")) then
      if link = .always then some ([], ts) else none
    else do
      let (command, rest) ← readCommand? fuel ts
      match rest with
      | .operator "&&" :: rest => (readSteps? fuel .ifOk rest).map (prepend (link, command))
      | .operator "||" :: rest => (readSteps? fuel .ifFailed rest).map (prepend (link, command))
      | .operator ";" :: rest | rest =>
        (readSteps? fuel .always rest).map (prepend (link, command))
where
  /-- Puts a command before others. -/
  prepend (step : Link × Command) : List (Link × Command) × List Token →
      List (Link × Command) × List Token
    | (steps, rest) => (step :: steps, rest)

/-- Reads a command. -/
def readCommand? (fuel : Nat) (ts : List Token) : Option (Command × List Token) :=
  match fuel, ts with
  | 0, _ => none
  | fuel + 1, .word w :: .word v :: .word u :: rest =>
    if w = wordOf "case" && u = wordOf "in" then
      (readBranches? fuel (skipLines rest)).map fun (branches, rest) => (.choose v branches, rest)
    else
      let ((words, redirects), rest) := readSimple ts
      some (.simple words redirects, rest)
  | _, ts =>
    let ((words, redirects), rest) := readSimple ts
    if words.isEmpty && redirects.isEmpty then none else some (.simple words redirects, rest)

/-- Reads the branches of a choice. -/
def readBranches? (fuel : Nat) (ts : List Token) :
    Option (List (List Word × List (Link × Command)) × List Token) :=
  match fuel with
  | 0 => none
  | fuel + 1 =>
    match ts with
    | .word w :: rest =>
      if w = wordOf "esac" then some ([], rest) else readBranch? fuel ts
    | .operator "(" :: rest => readBranch? fuel rest
    | _ => none

/-- Reads a branch and those after it. -/
def readBranch? (fuel : Nat) (ts : List Token) :
    Option (List (List Word × List (Link × Command)) × List Token) :=
  match fuel with
  | 0 => none
  | fuel + 1 => do
    let (patterns, rest) ← readPatterns? ts
    let (steps, rest) ← readSteps? fuel .always rest
    let rest := if rest.head? = some (.operator ";;") then skipLines rest.tail else rest
    let (branches, rest) ← readBranches? fuel rest
    return ((patterns, steps) :: branches, rest)

end

/-- The commands of a script. -/
def parse? (text : String) : Option (List (Link × Command)) := do
  let ts ← scan .plain none text.toList
  let (steps, rest) ← readSteps? (4 * ts.length + 4) .always ts
  if rest.isEmpty then return steps else none

end BuildMatrix.Script
