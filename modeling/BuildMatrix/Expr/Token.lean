import BuildMatrix.Expr.Basic
import BuildMatrix.Text.Blank
import BuildMatrix.Text.Number

/-!
# Tokens of a condition

`tokenize` cuts a statement into tokens, each with the byte offset of its first character. It
stops at the first character that begins no token and says why. White space separates tokens and
is otherwise skipped.
-/

namespace BuildMatrix

/-- What a token is. -/
inductive Lexeme
  | attr (name : String)
  | int (n : Int)
  | str (s : String)
  | compare (op : CompareOp)
  | combine (op : BoolOp)
  | leftParen
  | rightParen
  | leftBracket
  | rightBracket
  | comma
  deriving DecidableEq, Repr

/-- A lexeme and the byte offset where it starts. -/
structure Token where
  lexeme : Lexeme
  offset : Nat
  deriving DecidableEq, Repr

/-- Why a statement cannot be cut into tokens. -/
inductive LexError
  | unexpectedCharacter (c : Char)
  | unterminatedString
  | invalidOperator (c : Char)
  | invalidInteger (literal : String)
  | invalidAttribute (word : String)
  | unknownKeyword (word : String)
  | missingIn
  deriving DecidableEq, Repr

/-- The text of a lexeme in messages; the characters of a text are not escaped. -/
def Lexeme.render : Lexeme → String
  | attr name => name
  | int n => toString n
  | str s => "\"" ++ s ++ "\""
  | compare op => op.render
  | combine op => op.render
  | leftParen => "("
  | rightParen => ")"
  | leftBracket => "["
  | rightBracket => "]"
  | comma => ","

/-- The message of an error without its place. -/
def LexError.message : LexError → String
  | unexpectedCharacter c => "unexpected character '" ++ String.singleton c ++ "'"
  | unterminatedString => "unterminated string"
  | invalidOperator c => "invalid operator '" ++ String.singleton c ++ "'"
  | invalidInteger literal => "invalid integer literal '" ++ literal ++ "'"
  | invalidAttribute word => "invalid attribute name '" ++ word ++ "'"
  | unknownKeyword word => "unknown keyword '" ++ word ++ "'"
  | missingIn => "expected 'in' after 'not'"

namespace Token

/-- The characters of words: ASCII letters, digits and the underscore. -/
def isWordChar (c : Char) : Bool :=
  c.isAlphanum || c == '_'

/-- The word at the start of a text. -/
def word (cs : List Char) : List Char :=
  cs.takeWhile isWordChar

/-- What follows the word at the start of a text. -/
def afterWord (cs : List Char) : List Char :=
  cs.dropWhile isWordChar

/-- What follows the white space at the start of a text. -/
def afterBlanks (cs : List Char) : List Char :=
  cs.dropWhile Text.isBlank

theorem length_afterWord_le (cs : List Char) : (afterWord cs).length ≤ cs.length :=
  (List.dropWhile_suffix _).length_le

theorem length_afterBlanks_le (cs : List Char) : (afterBlanks cs).length ≤ cs.length :=
  (List.dropWhile_suffix _).length_le

/-- The characters of a text after its opening quote, and what follows its closing quote. A
backslash stands before a character that is meant literally, except that `\n` and `\t` are a line
feed and a tabulator. -/
def scanText : List Char → Option (List Char × List Char)
  | [] => none
  | '"' :: rest => some ([], rest)
  | ['\\'] => none
  | '\\' :: c :: rest =>
    (scanText rest).map fun (s, after) =>
      ((if c = 'n' then '\n' else if c = 't' then '\t' else c) :: s, after)
  | c :: rest => (scanText rest).map fun (s, after) => (c :: s, after)

/-- The number that the digits write: hexadecimal after `0x`, decimal otherwise. A number that
a signed word of sixty-four bits does not hold is refused. -/
def magnitude (digits : List Char) : Option Nat :=
  let value := match digits with
    | '0' :: 'x' :: hex => Text.readNat 16 hex
    | _ => Text.readNat 10 digits
  value.filter (· < Text.signedBound)

/-- A number with an optional minus sign, and what follows it. -/
def scanInt (cs : List Char) : Except LexError (Lexeme × List Char) :=
  match cs with
  | '-' :: rest =>
    match magnitude (word rest) with
    | some n => .ok (.int (-n), afterWord rest)
    | none => .error (.invalidInteger (String.ofList ('-' :: word rest)))
  | _ =>
    match magnitude (word cs) with
    | some n => .ok (.int n, afterWord cs)
    | none => .error (.invalidInteger (String.ofList (word cs)))

/-- The operator that starts with `c`, and what follows it. -/
def scanOperator (c : Char) (rest : List Char) : Except LexError (Lexeme × List Char) :=
  match c, rest with
  | '=', '=' :: rest => .ok (.compare .eq, rest)
  | '!', '=' :: rest => .ok (.compare .ne, rest)
  | '<', '=' :: rest => .ok (.compare .le, rest)
  | '>', '=' :: rest => .ok (.compare .ge, rest)
  | '<', rest => .ok (.compare .lt, rest)
  | '>', rest => .ok (.compare .gt, rest)
  | c, _ => .error (.invalidOperator c)

/-- The attribute name that the word `w` is, given what follows it. -/
def scanAttr (w after : List Char) : Except LexError (Lexeme × List Char) :=
  if w.any Char.isLower then .error (.invalidAttribute (String.ofList w))
  else .ok (.attr (String.ofList w), after)

/-- The lexeme that a word in lower case is, given what follows it; after `not` comes a second
word. -/
def scanKeyword (w after : List Char) : Except LexError (Lexeme × List Char) :=
  if w = ['a', 'n', 'd'] then .ok (.combine .and, after)
  else if w = ['o', 'r'] then .ok (.combine .or, after)
  else if w = ['i', 'n'] then .ok (.compare .isIn, after)
  else if w = ['n', 'o', 't'] then
    if word (afterBlanks after) = ['i', 'n'] then
      .ok (.compare .notIn, afterWord (afterBlanks after))
    else .error .missingIn
  else .error (.unknownKeyword (String.ofList w))

/-- The lexeme at the start of `c :: rest`, which does not start with white space, and what
follows it. -/
def scanLexeme (c : Char) (rest : List Char) : Except LexError (Lexeme × List Char) :=
  if c = '(' then .ok (.leftParen, rest)
  else if c = ')' then .ok (.rightParen, rest)
  else if c = '[' then .ok (.leftBracket, rest)
  else if c = ']' then .ok (.rightBracket, rest)
  else if c = ',' then .ok (.comma, rest)
  else if c = '"' then
    match scanText rest with
    | some (s, after) => .ok (.str (String.ofList s), after)
    | none => .error .unterminatedString
  else if c = '=' ∨ c = '!' ∨ c = '<' ∨ c = '>' then scanOperator c rest
  else if c = '-' ∨ c.isDigit then scanInt (c :: rest)
  else if c.isUpper then scanAttr (c :: word rest) (afterWord rest)
  else if c.isLower then scanKeyword (c :: word rest) (afterWord rest)
  else .error (.unexpectedCharacter c)

/-- The place of an error in the lexeme at the start of `cs`, in bytes: the second word where
that one is wrong, the start of the lexeme otherwise. -/
def errorPlace (cs : List Char) : LexError → Nat
  | .missingIn => Text.byteLength cs - Text.byteLength (afterBlanks (afterWord cs))
  | _ => 0

theorem length_scanText {cs s after : List Char} (h : scanText cs = some (s, after)) :
    after.length < cs.length := by
  fun_induction scanText cs generalizing s with
  | case1 => simp at h
  | case2 => simp_all
  | case3 => simp at h
  | case4 c rest ih =>
    obtain ⟨⟨u, a⟩, hu, hp⟩ := Option.map_eq_some_iff.1 h
    simp only [Prod.mk.injEq] at hp
    obtain ⟨-, rfl⟩ := hp
    have := ih hu
    simp only [List.length_cons]
    omega
  | case5 c rest _ _ _ ih =>
    obtain ⟨⟨u, a⟩, hu, hp⟩ := Option.map_eq_some_iff.1 h
    simp only [Prod.mk.injEq] at hp
    obtain ⟨-, rfl⟩ := hp
    have := ih hu
    simp only [List.length_cons]
    omega

theorem length_scanOperator {c : Char} {rest after : List Char} {l : Lexeme}
    (h : scanOperator c rest = .ok (l, after)) : after.length ≤ rest.length := by
  unfold scanOperator at h
  split at h <;> simp_all

theorem length_scanInt {c : Char} {rest after : List Char} {l : Lexeme}
    (hc : c = '-' ∨ c.isDigit = true) (h : scanInt (c :: rest) = .ok (l, after)) :
    after.length ≤ rest.length := by
  unfold scanInt at h
  split at h
  · next r hr =>
    obtain ⟨-, rfl⟩ := List.cons.inj hr
    split at h <;> simp only [Except.ok.injEq, Prod.mk.injEq, reduceCtorEq] at h
    exact h.2 ▸ length_afterWord_le _
  · next hr =>
    split at h <;> simp only [Except.ok.injEq, Prod.mk.injEq, reduceCtorEq] at h
    have hd : isWordChar c = true := by
      rcases hc with rfl | hc
      · exact absurd rfl (hr rest)
      · simp [isWordChar, Char.isAlphanum, hc]
    rw [← h.2]
    simpa [afterWord, hd] using length_afterWord_le rest

theorem length_scanKeyword {w rest after : List Char} {l : Lexeme}
    (h : scanKeyword w rest = .ok (l, after)) : after.length ≤ rest.length := by
  unfold scanKeyword at h
  repeat' split at h
  all_goals simp only [Except.ok.injEq, Prod.mk.injEq, reduceCtorEq] at h
  all_goals
    obtain ⟨-, rfl⟩ := h
    first
    | exact Nat.le_refl _
    | exact Nat.le_trans (length_afterWord_le _) (length_afterBlanks_le _)

/-- A lexeme takes at least one character. -/
theorem length_scanLexeme {c : Char} {rest after : List Char} {l : Lexeme}
    (h : scanLexeme c rest = .ok (l, after)) : after.length ≤ rest.length := by
  unfold scanLexeme at h
  repeat' split at h
  all_goals try (simp only [Except.ok.injEq, Prod.mk.injEq, reduceCtorEq] at h)
  all_goals try (exact h.2 ▸ Nat.le_refl _)
  · next s a hs => exact h.2 ▸ Nat.le_of_lt (length_scanText hs)
  · exact length_scanOperator h
  · next hc => exact length_scanInt hc h
  · unfold scanAttr at h
    split at h <;> simp only [Except.ok.injEq, Prod.mk.injEq, reduceCtorEq] at h
    exact h.2 ▸ length_afterWord_le _
  · exact Nat.le_trans (length_scanKeyword h) (length_afterWord_le _)

/-- The tokens of a text that starts at byte `offset` of its statement, or the first error and
its place. -/
def scan (offset : Nat) : List Char → Except (LexError × Nat) (List Token)
  | [] => .ok []
  | c :: rest =>
    if Text.isBlank c then scan (offset + c.utf8Size) rest
    else
      match _eq : scanLexeme c rest with
      | .error e => .error (e, offset + errorPlace (c :: rest) e)
      | .ok (lexeme, after) =>
        match scan (offset + (Text.byteLength (c :: rest) - Text.byteLength after)) after with
        | .error e => .error e
        | .ok tokens => .ok (⟨lexeme, offset⟩ :: tokens)
  termination_by cs => cs.length
  decreasing_by
    · simp
    · have := length_scanLexeme _eq
      simp only [List.length_cons]
      omega

theorem scan_nil (offset : Nat) : scan offset [] = .ok [] := by
  rw [scan]

/-- White space is passed over. -/
theorem scan_blank {c : Char} (hc : Text.isBlank c = true) (offset : Nat) (rest : List Char) :
    scan offset (c :: rest) = scan (offset + c.utf8Size) rest := by
  rw [scan, if_pos hc]

/-- A lexeme is a token before the tokens of what follows it. -/
theorem scan_lexeme {c : Char} {rest after : List Char} {l : Lexeme} {ts : List Token}
    (hc : Text.isBlank c = false) (hl : scanLexeme c rest = .ok (l, after)) (offset : Nat)
    (hts : scan (offset + (Text.byteLength (c :: rest) - Text.byteLength after)) after = .ok ts) :
    scan offset (c :: rest) = .ok (⟨l, offset⟩ :: ts) := by
  rw [scan, if_neg (by simp [hc])]
  split
  · next heq => exact absurd (hl.symm.trans heq) (by simp)
  · next heq =>
    obtain ⟨rfl, rfl⟩ := Prod.mk.inj (Except.ok.inj (hl.symm.trans heq))
    rw [hts]

end Token

/-- The tokens of a statement, or the first error and its place. -/
def tokenize (stmt : String) : Except (LexError × Nat) (List Token) :=
  Token.scan 0 stmt.toList

end BuildMatrix
