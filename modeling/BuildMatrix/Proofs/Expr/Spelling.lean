import BuildMatrix.Proofs.Expr.Ink

/-!
# How lexemes are spelled

A lexeme is cut off the start of a statement, and what is cut off is how the lexeme is spelled
there: a name, a number, an operator, the two words `not` and `in` with white space between them, or
a text between quotes.

* `Lexeme.IsSpelled`: the spellings of a lexeme, which are not empty (`Lexeme.IsSpelled.ne_nil`).
* `Token.TakesText`: how a text is read, up to the quote that closes it.
* `Token.exists_isSpelled_of_scanLexeme`: scanning cuts off a spelling of the lexeme that it gives.
-/

namespace BuildMatrix

/-- Whether characters of a statement spell a lexeme. -/
def Lexeme.IsSpelled : Lexeme → List Char → Prop
  | attr name, cs => cs = name.toList ∧ IsName cs
  | int n, cs => IsNumeral n cs
  | str s, cs => ∃ body, cs = '"' :: body ∧ Token.scanText body = some (s.toList, [])
  | compare .notIn, cs => ∃ blanks, blanks ≠ [] ∧ (∀ c ∈ blanks, Text.isBlank c = true) ∧
    cs = ['n', 'o', 't'] ++ (blanks ++ ['i', 'n'])
  | l, cs => cs = l.render.toList

theorem Lexeme.IsSpelled.ne_nil {l : Lexeme} {cs : List Char} (h : l.IsSpelled cs) : cs ≠ [] := by
  rintro rfl
  cases l with
  | attr name => exact absurd h.2.isUpper_head (by simp)
  | int n => exact absurd (IsNumeral.head h) (by simp)
  | str s =>
    obtain ⟨body, hbody, -⟩ := h
    exact absurd hbody nofun
  | compare op =>
    cases op with
    | notIn =>
      obtain ⟨blanks, -, -, hblanks⟩ := h
      exact absurd hblanks nofun
    | _ => exact absurd (show [] = _ from h) (by decide)
  | combine op => cases op <;> exact absurd (show [] = _ from h) (by decide)
  | _ => exact absurd (show [] = _ from h) (by decide)

namespace Token

variable {c : Char} {cs rest after : List Char} {l : Lexeme}

/-! ## Words -/

theorem word_append_afterWord (cs : List Char) : word cs ++ afterWord cs = cs :=
  List.takeWhile_append_dropWhile

theorem blanks_append_word (cs : List Char) :
    cs.takeWhile Text.isBlank ++ (word (afterBlanks cs) ++ afterWord (afterBlanks cs)) = cs := by
  rw [word_append_afterWord, afterBlanks, List.takeWhile_append_dropWhile]

/-- No word follows a word. -/
theorem word_afterWord (cs : List Char) : word (afterWord cs) = [] := by
  induction cs with
  | nil => rfl
  | cons c cs ih =>
    by_cases hc : isWordChar c = true
    · rwa [afterWord, List.dropWhile_cons_of_pos hc]
    · rw [afterWord, List.dropWhile_cons_of_neg hc, word, List.takeWhile_cons_of_neg hc]

theorem isWordChar_of_mem_cons_word (hc : isWordChar c = true) :
    ∀ d ∈ c :: word rest, isWordChar d = true := by
  intro d hd
  rcases List.mem_cons.mp hd with rfl | hd
  · exact hc
  · exact isWordChar_of_mem_word hd

theorem word_of_isWordChar (h : ∀ d ∈ cs, isWordChar d = true) :
    word cs = cs ∧ afterWord cs = [] := by
  have hsep : Separates [] := fun d hd => absurd hd nofun
  have hword := word_append h hsep
  have hafter := afterWord_append h hsep
  rw [List.append_nil] at hword hafter
  exact ⟨hword, hafter⟩

/-! ## Numbers -/

theorem isSome_of_readDigits {base n m : Nat} (h : Text.readDigits base n cs = some m) :
    ∀ d ∈ cs, (Text.digitValue d).isSome := by
  induction cs generalizing n with
  | nil => exact fun d hd => absurd hd List.not_mem_nil
  | cons c cs ih =>
    rw [Text.readDigits] at h
    split at h
    · next v hv =>
      split at h
      · intro d hd
        rcases List.mem_cons.mp hd with rfl | hd
        · rw [hv]
          rfl
        · exact ih h d hd
      · cases h
    · cases h

theorem isSome_of_readNat {base m : Nat} (h : Text.readNat base cs = some m) :
    ∀ d ∈ cs, (Text.digitValue d).isSome := by
  cases cs with
  | nil => cases h
  | cons c cs => exact isSome_of_readDigits h

/-- The characters of a number that is read. -/
theorem isNumeralChar_of_magnitude {n : Nat} (h : magnitude cs = some n) :
    ∀ d ∈ cs, Lexeme.IsNumeralChar d := by
  unfold magnitude at h
  have hvalue := (Option.filter_eq_some_iff.mp h).1
  split at hvalue
  · next hex =>
    intro d hd
    rcases List.mem_cons.mp hd with rfl | hd
    · exact Or.inl (by decide)
    rcases List.mem_cons.mp hd with rfl | hd
    · exact Or.inr rfl
    · exact Or.inl (isSome_of_readNat hvalue d hd)
  · exact fun d hd => Or.inl (isSome_of_readNat hvalue d hd)

theorem scanInt_of_ne_minus (hc : c ≠ '-') (rest : List Char) :
    scanInt (c :: rest) = match magnitude (word (c :: rest)) with
      | some n => .ok (.int n, afterWord (c :: rest))
      | none => .error (.invalidInteger (String.ofList (word (c :: rest)))) := by
  unfold scanInt
  split
  · next heq => exact absurd (List.cons.inj heq).1 hc
  · rfl

theorem exists_isSpelled_of_minus (h : scanInt ('-' :: rest) = .ok (l, after)) :
    ∃ written, '-' :: rest = written ++ after ∧ l.IsSpelled written := by
  have hword : word (word rest) = word rest ∧ afterWord (word rest) = [] :=
    word_of_isWordChar fun _ => isWordChar_of_mem_word
  rw [scanInt] at h
  split at h
  · next n hn =>
    obtain ⟨rfl, rfl⟩ := Prod.mk.inj (Except.ok.inj h)
    refine ⟨'-' :: word rest, ?_,
      ⟨'-', word rest, rfl, Or.inl rfl, isNumeralChar_of_magnitude hn⟩, ?_⟩
    · rw [List.cons_append, word_append_afterWord]
    · rw [scanInt, hword.1, hword.2, hn]
  · cases h

theorem exists_isSpelled_of_digit (hc : c.isDigit = true)
    (h : scanInt (c :: rest) = .ok (l, after)) :
    ∃ written, c :: rest = written ++ after ∧ l.IsSpelled written := by
  have hne : c ≠ '-' := by
    rintro rfl
    exact absurd hc (by decide)
  have hchar := isWordChar_of_isDigit hc
  have hword : word (c :: word rest) = c :: word rest ∧ afterWord (c :: word rest) = [] :=
    word_of_isWordChar (isWordChar_of_mem_cons_word hchar)
  have hcons : word (c :: rest) = c :: word rest := List.takeWhile_cons_of_pos hchar
  rw [scanInt_of_ne_minus hne, hcons] at h
  split at h
  · next n hn =>
    obtain ⟨rfl, rfl⟩ := Prod.mk.inj (Except.ok.inj h)
    have hchars := isNumeralChar_of_magnitude hn
    refine ⟨c :: word rest, ?_, ⟨c, word rest, rfl, Or.inr hc,
      fun d hd => hchars d (List.mem_cons_of_mem c hd)⟩, ?_⟩
    · rw [← hcons, word_append_afterWord]
    · rw [scanInt_of_ne_minus hne, hword.1, hword.2, hn]
  · cases h

/-! ## Operators, names and keywords -/

theorem exists_isSpelled_of_scanOperator (h : scanOperator c rest = .ok (l, after)) :
    ∃ written, c :: rest = written ++ after ∧ l.IsSpelled written := by
  unfold scanOperator at h
  split at h
  all_goals simp only [Except.ok.injEq, Prod.mk.injEq, reduceCtorEq] at h
  all_goals
    obtain ⟨rfl, rfl⟩ := h
  · exact ⟨['=', '='], rfl, rfl⟩
  · exact ⟨['!', '='], rfl, rfl⟩
  · exact ⟨['<', '='], rfl, rfl⟩
  · exact ⟨['>', '='], rfl, rfl⟩
  · exact ⟨['<'], rfl, rfl⟩
  · exact ⟨['>'], rfl, rfl⟩

theorem exists_isSpelled_of_scanAttr (hc : c.isUpper = true)
    (h : scanAttr (c :: word rest) (afterWord rest) = .ok (l, after)) :
    ∃ written, c :: rest = written ++ after ∧ l.IsSpelled written := by
  have hname := isReadable_of_scanAttr hc h
  unfold scanAttr at h
  split at h
  · exact absurd h nofun
  · obtain ⟨rfl, rfl⟩ := Prod.mk.inj (Except.ok.inj h)
    rw [Lexeme.IsReadable, String.toList_ofList] at hname
    refine ⟨c :: word rest, ?_, String.toList_ofList.symm, hname⟩
    rw [List.cons_append, word_append_afterWord]

/-- The two words of `not in` do not stand close together. -/
theorem blanks_ne_nil_of_word_eq (h : word (afterBlanks (afterWord cs)) = ['i', 'n']) :
    (afterWord cs).takeWhile Text.isBlank ≠ [] := by
  intro hnil
  have hsplit := List.takeWhile_append_dropWhile (p := Text.isBlank) (l := afterWord cs)
  rw [hnil, List.nil_append] at hsplit
  rw [afterBlanks, hsplit, word_afterWord] at h
  exact absurd h nofun

theorem exists_isSpelled_of_scanKeyword
    (h : scanKeyword (c :: word rest) (afterWord rest) = .ok (l, after)) :
    ∃ written, c :: rest = written ++ after ∧ l.IsSpelled written := by
  have hsplit : c :: rest = (c :: word rest) ++ afterWord rest := by
    rw [List.cons_append, word_append_afterWord]
  rw [hsplit]
  unfold scanKeyword at h
  split at h
  · next hw =>
    obtain ⟨rfl, rfl⟩ := Prod.mk.inj (Except.ok.inj h)
    exact ⟨_, rfl, hw⟩
  split at h
  · next hw =>
    obtain ⟨rfl, rfl⟩ := Prod.mk.inj (Except.ok.inj h)
    exact ⟨_, rfl, hw⟩
  split at h
  · next hw =>
    obtain ⟨rfl, rfl⟩ := Prod.mk.inj (Except.ok.inj h)
    exact ⟨_, rfl, hw⟩
  split at h
  · next hw =>
    split at h
    · next hin =>
      obtain ⟨rfl, rfl⟩ := Prod.mk.inj (Except.ok.inj h)
      refine ⟨['n', 'o', 't'] ++ ((afterWord rest).takeWhile Text.isBlank ++ ['i', 'n']), ?_,
        (afterWord rest).takeWhile Text.isBlank, blanks_ne_nil_of_word_eq hin,
        fun d hd => List.all_eq_true.mp List.all_takeWhile d hd, rfl⟩
      rw [hw, List.append_assoc, List.append_assoc, ← hin, blanks_append_word]
    · exact absurd h nofun
  · exact absurd h nofun

/-! ## Texts -/

/-- The characters of a text up to the quote that closes it, what is read of them, and the
characters that follow. -/
inductive TakesText : List Char → List Char → List Char → Prop
  | close (after : List Char) : TakesText ('"' :: after) [] after
  | escape {cs s after : List Char} (c : Char) : TakesText cs s after →
    TakesText ('\\' :: c :: cs) (Text.escaped c :: s) after
  | plain {c : Char} {cs s after : List Char} : c ≠ '"' → c ≠ '\\' → TakesText cs s after →
    TakesText (c :: cs) (c :: s) after

theorem TakesText.scanText_eq {s : List Char} (h : TakesText cs s after) :
    scanText cs = some (s, after) := by
  induction h with
  | close => rfl
  | escape c _ ih =>
    rw [scanText_escape, ih]
    rfl
  | plain hquote hslash _ ih =>
    rw [scanText_cons hquote hslash, ih]
    rfl

theorem takesText_of_scanText {s : List Char} (h : scanText cs = some (s, after)) :
    TakesText cs s after := by
  fun_induction scanText cs generalizing s with
  | case1 => cases h
  | case2 rest =>
    obtain ⟨rfl, rfl⟩ := Prod.mk.inj (Option.some.inj h)
    exact .close rest
  | case3 => cases h
  | case4 c rest ih =>
    obtain ⟨⟨u, tail⟩, hu, heq⟩ := Option.map_eq_some_iff.mp h
    obtain ⟨rfl, rfl⟩ := Prod.mk.inj heq
    exact .escape c (ih hu)
  | case5 c rest hquote hlone hpair ih =>
    obtain ⟨⟨u, tail⟩, hu, heq⟩ := Option.map_eq_some_iff.mp h
    obtain ⟨rfl, rfl⟩ := Prod.mk.inj heq
    -- A backslash is in one of the two cases above, with a character behind it or without one.
    have hslash : c ≠ '\\' := by
      rintro rfl
      cases rest with
      | nil => exact hlone rfl rfl
      | cons d ds => exact hpair d ds rfl rfl
    exact .plain hquote hslash (ih hu)

/-- What is read of a text ends with the quote that closes it. -/
theorem TakesText.exists_body {s : List Char} (h : TakesText cs s after) :
    ∃ body, cs = body ++ after ∧ TakesText body s [] := by
  induction h with
  | close => exact ⟨['"'], rfl, .close []⟩
  | escape c _ ih =>
    obtain ⟨body, rfl, hbody⟩ := ih
    exact ⟨'\\' :: c :: body, rfl, .escape c hbody⟩
  | @plain c _ _ _ hquote hslash _ ih =>
    obtain ⟨body, rfl, hbody⟩ := ih
    exact ⟨c :: body, rfl, .plain hquote hslash hbody⟩

/-- A text is read up to the quote that closes it, whatever follows. -/
theorem TakesText.append {s : List Char} (h : TakesText cs s after) (ds : List Char) :
    TakesText (cs ++ ds) s (after ++ ds) := by
  induction h with
  | close after => exact .close (after ++ ds)
  | escape c _ ih => exact .escape c ih
  | plain hquote hslash _ ih => exact .plain hquote hslash ih

/-! ## Lexemes -/

theorem exists_isSpelled_of_mark {m : Lexeme}
    (h : (Except.ok (m, rest) : Except LexError _) = .ok (l, after)) (hm : m.IsSpelled [c]) :
    ∃ written, c :: rest = written ++ after ∧ l.IsSpelled written := by
  obtain ⟨rfl, rfl⟩ := Prod.mk.inj (Except.ok.inj h)
  exact ⟨[c], rfl, hm⟩

/-- **What a lexeme takes.** Scanning cuts off a spelling of the lexeme that it gives. -/
theorem exists_isSpelled_of_scanLexeme (h : scanLexeme c rest = .ok (l, after)) :
    ∃ written, c :: rest = written ++ after ∧ l.IsSpelled written := by
  unfold scanLexeme at h
  split at h
  · next hc => exact exists_isSpelled_of_mark h (congrArg (· :: []) hc)
  split at h
  · next hc => exact exists_isSpelled_of_mark h (congrArg (· :: []) hc)
  split at h
  · next hc => exact exists_isSpelled_of_mark h (congrArg (· :: []) hc)
  split at h
  · next hc => exact exists_isSpelled_of_mark h (congrArg (· :: []) hc)
  split at h
  · next hc => exact exists_isSpelled_of_mark h (congrArg (· :: []) hc)
  split at h
  · next hc =>
    split at h
    · next s _ hs =>
      obtain ⟨rfl, rfl⟩ := Prod.mk.inj (Except.ok.inj h)
      obtain ⟨body, rfl, hbody⟩ := (takesText_of_scanText hs).exists_body
      refine ⟨'"' :: body, by rw [hc, List.cons_append], body, rfl, ?_⟩
      rw [hbody.scanText_eq, String.toList_ofList]
    · exact absurd h nofun
  split at h
  · exact exists_isSpelled_of_scanOperator h
  split at h
  · next hc =>
    rcases hc with rfl | hdigit
    · exact exists_isSpelled_of_minus h
    · exact exists_isSpelled_of_digit hdigit h
  split at h
  · next hupper => exact exists_isSpelled_of_scanAttr hupper h
  split at h
  · exact exists_isSpelled_of_scanKeyword h
  · exact absurd h nofun

end Token

end BuildMatrix
