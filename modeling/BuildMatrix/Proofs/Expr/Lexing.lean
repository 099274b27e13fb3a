import BuildMatrix.Proofs.Text.Alphanum
import BuildMatrix.Proofs.Text.Lines
import BuildMatrix.Proofs.Text.Quoted

/-!
# Written lexemes are read back

* `Token.Lexes`: the lexemes of a text, wherever it stands in a statement.
* `Lexeme.IsReadable`: what holds of the lexemes that scanning gives
  (`Token.isReadable_of_scan`).
* `Token.Spells`: a text that has some lexemes before every text that does not go on with a word or
  an operator, with a lemma for each kind of lexeme.
-/

namespace BuildMatrix

/-! ## Lexemes of a text -/

namespace Token

/-- Whether a text has some lexemes, wherever it stands. -/
def Lexes (cs : List Char) (ls : List Lexeme) : Prop :=
  ∀ offset, ∃ ts, scan offset cs = .ok ts ∧ ts.map Token.lexeme = ls

theorem lexes_nil : Lexes [] [] :=
  fun offset => ⟨[], scan_nil offset, rfl⟩

/-- White space has no lexemes. -/
theorem Lexes.blank {c : Char} {cs : List Char} {ls : List Lexeme} (h : Lexes cs ls)
    (hc : Text.isBlank c = true) : Lexes (c :: cs) ls := by
  intro offset
  rw [scan_blank hc]
  exact h _

/-- One lexeme before others. -/
theorem Lexes.cons {c : Char} {cs after : List Char} {l : Lexeme} {ls : List Lexeme}
    (h : Lexes after ls) (hc : Text.isBlank c = false) (hl : scanLexeme c cs = .ok (l, after)) :
    Lexes (c :: cs) (l :: ls) := by
  intro offset
  obtain ⟨ts, hts, rfl⟩ :=
    h (offset + (Text.byteLength (c :: cs) - Text.byteLength after))
  exact ⟨⟨l, offset⟩ :: ts, scan_lexeme hc hl offset hts, rfl⟩

end Token

/-! ## Readable lexemes -/

/-- Whether a text is the name of an attribute. -/
structure IsName (w : List Char) : Prop where
  isUpper_head : ∃ c cs, w = c :: cs ∧ c.isUpper = true
  isWordChar : ∀ c ∈ w, Token.isWordChar c = true
  not_isLower : w.any Char.isLower = false

/-- What holds of the lexemes that scanning gives. -/
def Lexeme.IsReadable : Lexeme → Prop
  | attr name => IsName name.toList
  | int n => n.natAbs < Text.signedBound
  | _ => True

namespace Token

theorem lt_signedBound_of_magnitude {cs : List Char} {n : Nat} (h : magnitude cs = some n) :
    n < Text.signedBound := by
  unfold magnitude at h
  exact of_decide_eq_true (Option.filter_eq_some_iff.mp h).2

theorem isReadable_of_scanInt {cs after : List Char} {l : Lexeme}
    (h : scanInt cs = .ok (l, after)) : l.IsReadable := by
  unfold scanInt at h
  split at h
  all_goals
    split at h
    · next n hn =>
      obtain ⟨rfl, rfl⟩ := Prod.mk.inj (Except.ok.inj h)
      simpa [Lexeme.IsReadable] using lt_signedBound_of_magnitude hn
    · exact absurd h (by simp)

theorem isReadable_of_scanOperator {c : Char} {cs after : List Char} {l : Lexeme}
    (h : scanOperator c cs = .ok (l, after)) : l.IsReadable := by
  unfold scanOperator at h
  split at h
  all_goals simp only [Except.ok.injEq, Prod.mk.injEq, reduceCtorEq] at h
  all_goals
    obtain ⟨rfl, -⟩ := h
    trivial

theorem isReadable_of_scanKeyword {w cs after : List Char} {l : Lexeme}
    (h : scanKeyword w cs = .ok (l, after)) : l.IsReadable := by
  unfold scanKeyword at h
  repeat' split at h
  all_goals simp only [Except.ok.injEq, Prod.mk.injEq, reduceCtorEq] at h
  all_goals
    obtain ⟨rfl, -⟩ := h
    trivial

theorem isWordChar_of_mem_word {cs : List Char} {c : Char} (h : c ∈ word cs) :
    isWordChar c = true :=
  List.all_eq_true.mp List.all_takeWhile c h

theorem isWordChar_eq (c : Char) :
    isWordChar c = (c.isUpper || c.isLower || c.isDigit || c == '_') :=
  rfl

theorem isWordChar_of_isUpper {c : Char} (h : c.isUpper = true) : isWordChar c = true := by
  simp [isWordChar_eq, h]

theorem isWordChar_of_isLower {c : Char} (h : c.isLower = true) : isWordChar c = true := by
  simp [isWordChar_eq, h]

theorem isWordChar_of_isDigit {c : Char} (h : c.isDigit = true) : isWordChar c = true := by
  simp [isWordChar_eq, h]

theorem isReadable_of_scanAttr {c : Char} {cs after rest : List Char} {l : Lexeme}
    (hc : c.isUpper = true) (h : scanAttr (c :: word cs) after = .ok (l, rest)) :
    l.IsReadable := by
  unfold scanAttr at h
  split at h
  · exact absurd h (by simp)
  · next hlower =>
    obtain ⟨rfl, rfl⟩ := Prod.mk.inj (Except.ok.inj h)
    rw [Bool.not_eq_true] at hlower
    refine ⟨⟨c, word cs, String.toList_ofList, hc⟩, ?_, ?_⟩
    · intro d hd
      rw [String.toList_ofList] at hd
      rcases List.mem_cons.mp hd with rfl | hd
      · exact isWordChar_of_isUpper hc
      · exact isWordChar_of_mem_word hd
    · rw [String.toList_ofList]
      exact hlower

theorem isReadable_of_scanLexeme {c : Char} {cs after : List Char} {l : Lexeme}
    (h : scanLexeme c cs = .ok (l, after)) : l.IsReadable := by
  unfold scanLexeme at h
  repeat' split at h
  all_goals try simp only [Except.ok.injEq, Prod.mk.injEq, reduceCtorEq] at h
  all_goals try
    obtain ⟨rfl, -⟩ := h
    trivial
  · exact isReadable_of_scanOperator h
  · exact isReadable_of_scanInt h
  · next hc => exact isReadable_of_scanAttr hc h
  · exact isReadable_of_scanKeyword h

/-- The lexemes that scanning gives are readable. -/
theorem isReadable_of_scan {offset : Nat} {cs : List Char} {ts : List Token}
    (h : scan offset cs = .ok ts) : ∀ t ∈ ts, t.lexeme.IsReadable := by
  fun_induction scan offset cs generalizing ts with
  | case1 =>
    obtain rfl := Except.ok.inj h
    simp
  | case2 _ _ _ _ ih => exact ih h
  | case3 => exact absurd h (by simp)
  | case4 => exact absurd h (by simp)
  | case5 offset c rest hc l after hl tokens htokens ih =>
    obtain rfl := Except.ok.inj h
    intro t ht
    rcases List.mem_cons.mp ht with rfl | ht
    · exact isReadable_of_scanLexeme hl
    · exact ih htokens t ht

/-! ## Spelled lexemes -/

/-- Whether a text goes on with nothing that could belong to a word or an operator before it. -/
def Separates (rest : List Char) : Prop :=
  ∀ c ∈ rest.head?, c ∈ [' ', ')', ']', ',']

/-- Whether a text spells some lexemes, wherever a text that separates follows. -/
def Spells (cs : List Char) (ls : List Lexeme) : Prop :=
  ∀ rest after, Separates rest → Lexes rest after → Lexes (cs ++ rest) (ls ++ after)

theorem separates_cons {c : Char} (h : c ∈ [' ', ')', ']', ',']) (rest : List Char) :
    Separates (c :: rest) := by
  intro d hd
  rw [List.head?_cons, Option.mem_some_iff] at hd
  rwa [← hd]

theorem Separates.not_isWordChar {rest : List Char} (h : Separates rest) :
    ∀ c ∈ rest.head?, isWordChar c = false := by
  have hall : [' ', ')', ']', ','].all (fun c => !isWordChar c) = true := by decide
  intro c hc
  simpa using List.all_eq_true.mp hall c (h c hc)

theorem word_append {w rest : List Char} (hw : ∀ c ∈ w, isWordChar c = true)
    (hrest : Separates rest) : word (w ++ rest) = w :=
  Text.takeWhile_append_eq hw hrest.not_isWordChar

theorem afterWord_append {w rest : List Char} (hw : ∀ c ∈ w, isWordChar c = true)
    (hrest : Separates rest) : afterWord (w ++ rest) = rest :=
  Text.dropWhile_append_eq hw hrest.not_isWordChar

/-- Two spelled texts with a space between them. -/
theorem Spells.append_blank {cs ds : List Char} {ls ms : List Lexeme} (hcs : Spells cs ls)
    (hds : Spells ds ms) : Spells (cs ++ ' ' :: ds) (ls ++ ms) := by
  intro rest after hrest hafter
  rw [List.append_assoc, List.append_assoc]
  exact hcs _ _ (separates_cons (by simp) _)
    ((hds rest after hrest hafter).blank Text.isBlank_space)

theorem Spells.lexes {cs : List Char} {ls : List Lexeme} (h : Spells cs ls) : Lexes cs ls := by
  have hall := h [] [] (by simp [Separates]) lexes_nil
  rwa [List.append_nil, List.append_nil] at hall

/-! ### Words -/

theorem isBlank_of_isWordChar {c : Char} (h : isWordChar c = true) :
    Text.isBlank c = false := by
  rw [isWordChar, Bool.or_eq_true, beq_iff_eq] at h
  obtain h | rfl := h
  · exact Text.isBlank_of_isAlphanum h
  · decide

/-- A word is a number, a name or a keyword by its first character. -/
theorem scanLexeme_of_isWordChar {c : Char} (h : isWordChar c = true) (rest : List Char) :
    scanLexeme c rest =
      if c.isDigit then scanInt (c :: rest)
      else if c.isUpper then scanAttr (c :: word rest) (afterWord rest)
      else if c.isLower then scanKeyword (c :: word rest) (afterWord rest)
      else .error (.unexpectedCharacter c) := by
  have hmarks : ['(', ')', '[', ']', ',', '"', '=', '!', '<', '>', '-'].all
    (fun d => !isWordChar d) = true := by decide
  have hne : ∀ d ∈ ['(', ')', '[', ']', ',', '"', '=', '!', '<', '>', '-'], c ≠ d := by
    rintro d hd rfl
    simpa [h] using List.all_eq_true.mp hmarks c hd
  simp only [List.forall_mem_cons] at hne
  simp [scanLexeme, hne]

theorem isDigit_of_isUpper {c : Char} (h : c.isUpper = true) : c.isDigit = false := by
  rw [← Bool.not_eq_true]
  intro hdigit
  have hupper := Text.isUpper_iff.mp h
  have hrange := Text.isDigit_iff.mp hdigit
  omega

theorem spells_attr {w : List Char} (h : IsName w) : Spells w [.attr (String.ofList w)] := by
  obtain ⟨c, cs, rfl, hupper⟩ := h.isUpper_head
  obtain ⟨hc, hcs⟩ := List.forall_mem_cons.mp h.isWordChar
  intro rest after hrest hafter
  refine hafter.cons (isBlank_of_isWordChar hc) ?_
  show scanLexeme c (cs ++ rest) = _
  rw [scanLexeme_of_isWordChar hc, if_neg (by simp [isDigit_of_isUpper hupper]), if_pos hupper,
    word_append hcs hrest, afterWord_append hcs hrest, scanAttr, if_neg (by simp [h.not_isLower])]

theorem scanLexeme_of_isLower {c : Char} {w rest : List Char} (hc : c.isLower = true)
    (hw : ∀ d ∈ w, isWordChar d = true) (hrest : Separates rest) :
    scanLexeme c (w ++ rest) = scanKeyword (c :: w) rest := by
  have hrange := Text.isLower_iff.mp hc
  have hdigit : c.isDigit = false := by
    rw [← Bool.not_eq_true]
    intro h
    have := Text.isDigit_iff.mp h
    omega
  have hupper : c.isUpper = false := by
    rw [← Bool.not_eq_true]
    intro h
    have := Text.isUpper_iff.mp h
    omega
  rw [scanLexeme_of_isWordChar (isWordChar_of_isLower hc), if_neg (by simp [hdigit]),
    if_neg (by simp [hupper]), if_pos hc, word_append hw hrest, afterWord_append hw hrest]

/-- A keyword spells its lexeme. -/
theorem spells_keyword {c : Char} {w : List Char} {l : Lexeme} (hc : c.isLower = true)
    (hw : w.all isWordChar = true) (hl : ∀ rest, scanKeyword (c :: w) rest = .ok (l, rest)) :
    Spells (c :: w) [l] := by
  intro rest after hrest hafter
  exact hafter.cons (isBlank_of_isWordChar (isWordChar_of_isLower hc))
    ((scanLexeme_of_isLower hc (List.all_eq_true.mp hw) hrest).trans (hl rest))

/-! ### Numbers and texts -/

/-- Decimal digits do not begin like a hexadecimal number. -/
theorem magnitude_toDigits {n : Nat} (h : n < Text.signedBound) :
    magnitude (Nat.toDigits 10 n) = some n := by
  have hvalue : Option.filter (· < Text.signedBound) (some n) = some n :=
    Option.filter_some_pos (by simpa using h)
  unfold magnitude
  split
  · next hex heq =>
    have hx : 'x' ∈ Nat.toDigits 10 n := by simp [heq]
    exact absurd (Text.isDigit_of_mem_toDigits hx) (by decide)
  · rw [Text.readNat_toDigits]
    exact hvalue

theorem isWordChar_of_mem_toDigits {n : Nat} {c : Char} (h : c ∈ Nat.toDigits 10 n) :
    isWordChar c = true :=
  isWordChar_of_isDigit (Text.isDigit_of_mem_toDigits h)

theorem spells_nat {n : Nat} (h : n < Text.signedBound) :
    Spells (Nat.toDigits 10 n) [.int n] := by
  intro rest after hrest hafter
  have hword := word_append (fun _ => isWordChar_of_mem_toDigits (n := n)) hrest
  have hend := afterWord_append (fun _ => isWordChar_of_mem_toDigits (n := n)) hrest
  have hmagnitude := magnitude_toDigits h
  obtain ⟨c, cs, hdigits⟩ := List.exists_cons_of_ne_nil (Nat.toDigits_ne_nil (n := n) (b := 10))
  have hc : c.isDigit = true := Text.isDigit_of_mem_toDigits (n := n) (by simp [hdigits])
  rw [hdigits] at hword hend hmagnitude ⊢
  refine hafter.cons (isBlank_of_isWordChar (isWordChar_of_isDigit hc)) ?_
  show scanLexeme c (cs ++ rest) = _
  rw [scanLexeme_of_isWordChar (isWordChar_of_isDigit hc), if_pos hc, scanInt]
  · rw [← List.cons_append, hword, hend, hmagnitude]
  · intro r heq
    rw [(List.cons.inj heq).1] at hc
    exact absurd hc (by decide)

theorem spells_neg {n : Nat} (h : n < Text.signedBound) :
    Spells ('-' :: Nat.toDigits 10 n) [.int (-n)] := by
  intro rest after hrest hafter
  have hword := word_append (fun _ => isWordChar_of_mem_toDigits (n := n)) hrest
  have hend := afterWord_append (fun _ => isWordChar_of_mem_toDigits (n := n)) hrest
  refine hafter.cons (by decide) ?_
  show scanInt ('-' :: (Nat.toDigits 10 n ++ rest)) = _
  simp only [scanInt, hword, hend, magnitude_toDigits h]

/-- A number spells itself, with a minus sign or without. -/
theorem spells_int {n : Int} (h : n.natAbs < Text.signedBound) :
    Spells (toString n).toList [.int n] := by
  rw [Int.toString_eq_repr]
  cases n with
  | ofNat m =>
    show Spells m.repr.toList [.int m]
    rw [Nat.toList_repr]
    exact spells_nat h
  | negSucc m =>
    show Spells ("-" ++ (m + 1).repr).toList [.int (-(m + 1 : Nat))]
    rw [String.toList_append, Nat.toList_repr]
    exact spells_neg h

/-- A quoted text spells the text that comes back. -/
theorem spells_quoted (s : String) :
    Spells (Text.quoted s).toList [.str (Text.rereadText s)] := by
  intro rest after _ hafter
  have hscan := scanText_quoted s.toList rest
  rw [Text.quoted, String.toList_ofList]
  refine hafter.cons (by decide) ?_
  show scanLexeme '"' ((s.toList.flatMap Text.quotedChar ++ ['"']) ++ rest) = _
  rw [List.append_assoc, List.singleton_append]
  simp [scanLexeme, hscan, Text.rereadText]

/-! ### Operators and parentheses -/

theorem Separates.ne_equals {rest : List Char} (h : Separates rest) : ∀ r, rest ≠ '=' :: r := by
  rintro r rfl
  exact absurd (h '=' rfl) (by decide)

theorem scanOperator_lt {rest : List Char} (h : Separates rest) :
    scanOperator '<' rest = .ok (.compare .lt, rest) := by
  have hne := h.ne_equals
  unfold scanOperator
  split <;> simp_all

theorem scanOperator_gt {rest : List Char} (h : Separates rest) :
    scanOperator '>' rest = .ok (.compare .gt, rest) := by
  have hne := h.ne_equals
  unfold scanOperator
  split <;> simp_all

/-- The second word of `not in` is read with the first one. -/
theorem scanLexeme_notIn {rest : List Char} (h : Separates rest) :
    scanLexeme 'n' ('o' :: 't' :: ' ' :: 'i' :: 'n' :: rest) = .ok (.compare .notIn, rest) := by
  have hin : ['i', 'n'].all isWordChar = true := by decide
  have hot : ['o', 't'].all isWordChar = true := by decide
  have hblank : afterBlanks (' ' :: 'i' :: 'n' :: rest) = ['i', 'n'] ++ rest := rfl
  have hspace : Separates (' ' :: 'i' :: 'n' :: rest) := separates_cons (by simp) _
  have hn : 'n'.isLower = true := by decide
  refine (scanLexeme_of_isLower hn (List.all_eq_true.mp hot) hspace).trans ?_
  show (if word (afterBlanks (' ' :: 'i' :: 'n' :: rest)) = ['i', 'n'] then
      Except.ok (Lexeme.compare .notIn, afterWord (afterBlanks (' ' :: 'i' :: 'n' :: rest)))
    else .error LexError.missingIn) = _
  rw [hblank, word_append (List.all_eq_true.mp hin) h, if_pos rfl,
    afterWord_append (List.all_eq_true.mp hin) h]

theorem spells_compareOp (op : CompareOp) : Spells op.render.toList [.compare op] := by
  cases op with
  | isIn => exact spells_keyword (by decide) (by decide) fun _ => rfl
  | notIn => exact fun rest after hrest hafter => hafter.cons (by decide) (scanLexeme_notIn hrest)
  | lt => exact fun rest after hrest hafter => hafter.cons (by decide) (scanOperator_lt hrest)
  | gt => exact fun rest after hrest hafter => hafter.cons (by decide) (scanOperator_gt hrest)
  | _ => exact fun rest after _ hafter => hafter.cons (by decide) rfl

theorem spells_boolOp (op : BoolOp) : Spells op.render.toList [.combine op] := by
  cases op with
  | and => exact spells_keyword (by decide) (by decide) fun _ => rfl
  | or => exact spells_keyword (by decide) (by decide) fun _ => rfl

theorem Spells.paren {cs : List Char} {ls : List Lexeme} (h : Spells cs ls) :
    Spells ('(' :: (cs ++ [')'])) (.leftParen :: (ls ++ [.rightParen])) := by
  intro rest after _ hafter
  have hclose : Lexes (')' :: rest) (.rightParen :: after) := hafter.cons (by decide) rfl
  have hinner := h _ _ (separates_cons (by simp) _) hclose
  have hopen : Lexes ('(' :: (cs ++ ')' :: rest)) (.leftParen :: (ls ++ .rightParen :: after)) :=
    hinner.cons (by decide) rfl
  simpa using hopen

end Token

end BuildMatrix
