import BuildMatrix.Proofs.Expr.Spelling

/-!
# What scanning takes

A lexeme takes the characters that it is written with, perhaps with white space between the two
words of `not in`, and a text takes its characters up to the quote that ends it. So the characters
outside of the texts of a statement are how its lexemes are written, and those inside are what its
texts are read from.

* `Token.IsRaw`, `Token.isRaw_of_isSpelled`, `Token.exists_isRaw_of_scanLexeme`: one lexeme.
* `Token.ReadsTexts`: the texts among lexemes, and the characters that they are read from.
* `Token.isScanned_of_scan`: the lexemes of a statement.
* `Token.eq_of_readsTexts`: the characters inside of texts tell what they say.
* `Token.IsScanned.withoutText_eq`: statements that differ in white space only have the same lexemes
  apart from what texts say.
-/

namespace BuildMatrix.Token

variable {c : Char} {cs rest after raw : List Char} {l : Lexeme} {ls ms : List Lexeme}

/-! ## One lexeme -/

/-- Whether a lexeme that is no text takes some characters, white space among them. -/
structure IsRaw (l : Lexeme) (raw : List Char) : Prop where
  ne_marks : ∀ d ∈ raw, d ≠ '"' ∧ d ≠ '\\'
  isWritten : l.IsWritten (Text.ink raw)
  ne_str : ∀ s, l ≠ .str s

theorem ne_marks_of_notMem (h : '"' ∉ raw ∧ '\\' ∉ raw) : ∀ d ∈ raw, d ≠ '"' ∧ d ≠ '\\' :=
  fun _ hd => ⟨fun heq => h.1 (heq ▸ hd), fun heq => h.2 (heq ▸ hd)⟩

theorem ne_marks_of_isWordChar (h : isWordChar c = true) : c ≠ '"' ∧ c ≠ '\\' := by
  constructor <;>
  · rintro rfl
    exact absurd h (by decide)

theorem ink_of_isWordChar (h : ∀ d ∈ cs, isWordChar d = true) : Text.ink cs = cs :=
  Text.ink_eq_self fun d hd => isBlank_of_isWordChar (h d hd)

theorem isWordChar_of_isNumeralChar (h : Lexeme.IsNumeralChar c) : isWordChar c = true := by
  rcases h with h | rfl
  · rw [isWordChar, Text.isAlphanum_of_digitValue h, Bool.true_or]
  · decide

/-- A number takes word characters, perhaps after a minus sign. -/
theorem isRaw_of_isNumeral {n : Int} (h : Lexeme.IsNumeral n raw) : IsRaw (.int n) raw := by
  obtain ⟨c, cs, rfl, hc, hcs⟩ := h.head
  have hword : ∀ d ∈ cs, isWordChar d = true := fun d hd => isWordChar_of_isNumeralChar (hcs d hd)
  have hhead : Text.isBlank c = false ∧ c ≠ '"' ∧ c ≠ '\\' := by
    rcases hc with rfl | hdigit
    · decide
    · have hchar := isWordChar_of_isDigit hdigit
      exact ⟨isBlank_of_isWordChar hchar, ne_marks_of_isWordChar hchar⟩
  refine ⟨List.forall_mem_cons.mpr ⟨hhead.2, fun d hd => ne_marks_of_isWordChar (hword d hd)⟩, ?_,
    nofun⟩
  rw [Text.ink_cons hhead.1, ink_of_isWordChar hword]
  exact h

/-- The two words of `not in`, with white space between them. -/
theorem isRaw_notIn {blanks : List Char} (h : ∀ d ∈ blanks, Text.isBlank d = true) :
    IsRaw (.compare .notIn) (['n', 'o', 't'] ++ (blanks ++ ['i', 'n'])) := by
  have hink : Text.ink blanks = [] := List.filter_eq_nil_iff.mpr fun d hd => by simp [h d hd]
  have hnot : ∀ d ∈ ['n', 'o', 't'], isWordChar d = true := List.all_eq_true.mp (by decide)
  have hin : ∀ d ∈ ['i', 'n'], isWordChar d = true := List.all_eq_true.mp (by decide)
  refine ⟨fun d hd => ?_, ?_, nofun⟩
  · rcases List.mem_append.mp hd with hd | hd
    · exact ne_marks_of_isWordChar (hnot d hd)
    rcases List.mem_append.mp hd with hd | hd
    · exact ne_of_isBlank (h d hd)
    · exact ne_marks_of_isWordChar (hin d hd)
  · rw [Text.ink_append, Text.ink_append, hink]
    rfl

/-- A lexeme that is no text takes its spelling. -/
theorem isRaw_of_isSpelled (h : l.IsSpelled raw) (hne : ∀ s, l ≠ .str s) : IsRaw l raw := by
  cases l with
  | attr name =>
    obtain ⟨rfl, hname⟩ := h
    have hword := hname.isWordChar
    refine ⟨fun d hd => ne_marks_of_isWordChar (hword d hd), ?_, nofun⟩
    rw [ink_of_isWordChar hword]
    exact ⟨rfl, hname⟩
  | int n => exact isRaw_of_isNumeral h
  | str s => exact absurd rfl (hne s)
  | compare op =>
    cases op with
    | notIn =>
      obtain ⟨blanks, -, hblanks, rfl⟩ := h
      exact isRaw_notIn hblanks
    | _ =>
      subst h
      exact ⟨ne_marks_of_notMem (by decide), rfl, nofun⟩
  | combine op =>
    subst h
    cases op <;> exact ⟨ne_marks_of_notMem (by decide), rfl, nofun⟩
  | _ =>
    subst h
    exact ⟨ne_marks_of_notMem (by decide), rfl, nofun⟩

/-- **What a lexeme takes.** A lexeme is no text and takes what it is written with, or it is a text
and takes the characters up to the quote that ends it. -/
theorem exists_isRaw_of_scanLexeme (h : scanLexeme c rest = .ok (l, after)) :
    (∃ raw, c :: rest = raw ++ after ∧ IsRaw l raw) ∨
      ∃ s, c = '"' ∧ l = .str (String.ofList s) ∧ scanText rest = some (s, after) := by
  obtain ⟨raw, hsplit, hspelled⟩ := exists_isSpelled_of_scanLexeme h
  by_cases hstr : ∃ s, l = .str s
  · obtain ⟨s, rfl⟩ := hstr
    obtain ⟨body, rfl, hbody⟩ := hspelled
    obtain ⟨rfl, rfl⟩ := List.cons.inj hsplit
    refine Or.inr ⟨s.toList, rfl, by rw [String.ofList_toList], ?_⟩
    exact ((takesText_of_scanText hbody).append after).scanText_eq
  · exact Or.inl ⟨raw, hsplit, isRaw_of_isSpelled hspelled fun s hs => hstr ⟨s, hs⟩⟩

/-! ## The characters of a statement -/

/-- A lexeme that is no text stands outside of texts. -/
theorem outside_append (h : ∀ d ∈ raw, d ≠ '"' ∧ d ≠ '\\') (after : List Char) :
    (Closes .outside (raw ++ after) ↔ Closes .outside after) ∧
      outsideInk .outside (raw ++ after) = Text.ink raw ++ outsideInk .outside after ∧
      insideChars .outside (raw ++ after) = insideChars .outside after := by
  induction raw with
  | nil => exact ⟨Iff.rfl, rfl, rfl⟩
  | cons d raw ih =>
    obtain ⟨hd, hraw⟩ := List.forall_mem_cons.mp h
    obtain ⟨hcloses, houtside, hinside⟩ := ih hraw
    have hnext : Place.outside.next d = .outside := (next_of_ne hd.1 hd.2).1
    rw [List.cons_append, Closes, outsideInk, insideChars, hnext, if_pos rfl, hcloses, houtside,
      hinside]
    refine ⟨and_iff_right fun _ => hd.2, ?_, rfl⟩
    cases hblank : Text.isBlank d with
    | true => rw [if_neg (by simp), Text.ink_cons_blank hblank]
    | false => rw [if_pos ⟨rfl, rfl⟩, Text.ink_cons hblank, List.cons_append]

/-- A text stands inside, up to the quote that ends it, and is read from what stands there. -/
theorem TakesText.inside {s : List Char} (h : TakesText cs s after) :
    (Closes .outside after → Closes .inside cs) ∧
      outsideInk .inside cs = outsideInk .outside after ∧
      TakesText (insideChars .inside cs) s (insideChars .outside after) := by
  induction h with
  | close after =>
    exact ⟨fun hcloses => ⟨fun hp => absurd hp (by decide), hcloses⟩, rfl, .close _⟩
  | escape c _ ih =>
    obtain ⟨hcloses, houtside, htext⟩ := ih
    refine ⟨fun hafter => ?_, houtside, .escape c htext⟩
    exact ⟨fun hp => absurd hp (by decide), fun hp => absurd hp (by decide), hcloses hafter⟩
  | @plain c _ _ _ hquote hslash _ ih =>
    obtain ⟨hcloses, houtside, htext⟩ := ih
    have hnext : Place.inside.next c = .inside := (next_of_ne hquote hslash).2
    rw [Closes, outsideInk, insideChars, hnext, if_neg (by simp), if_neg (by simp)]
    exact ⟨fun hafter => ⟨fun hp => absurd hp (by decide), hcloses hafter⟩, houtside,
      .plain hquote hslash htext⟩

/-- The texts among some lexemes, and the characters that they are read from. -/
inductive ReadsTexts : List Lexeme → List Char → Prop
  | nil : ReadsTexts [] []
  | str {s cs after : List Char} {ls : List Lexeme} : scanText cs = some (s, after) →
    ReadsTexts ls after → ReadsTexts (.str (String.ofList s) :: ls) cs
  | other {l : Lexeme} {ls : List Lexeme} {cs : List Char} :
    (∀ s, l ≠ .str s) → ReadsTexts ls cs → ReadsTexts (l :: ls) cs

/-- Whether some lexemes are those of a statement: they are written with the characters outside of
texts, and their texts are read from those inside. -/
structure IsScanned (cs : List Char) (ls : List Lexeme) : Prop where
  closes : Closes .outside cs
  written : Lexeme.Written ls (outsideInk .outside cs)
  readsTexts : ReadsTexts ls (insideChars .outside cs)

theorem isScanned_nil : IsScanned [] [] :=
  ⟨rfl, .nil, .nil⟩

theorem IsScanned.blank (h : IsScanned cs ls) (hc : Text.isBlank c = true) :
    IsScanned (c :: cs) ls := by
  have hmarks : ∀ d ∈ [c], d ≠ '"' ∧ d ≠ '\\' := by
    intro d hd
    rw [List.mem_singleton.mp hd]
    exact ne_of_isBlank hc
  obtain ⟨hcloses, houtside, hinside⟩ := outside_append hmarks cs
  rw [Text.ink_cons_blank hc] at houtside
  refine ⟨hcloses.mpr h.closes, ?_, ?_⟩
  · show Lexeme.Written ls (outsideInk .outside ([c] ++ cs))
    rw [houtside]
    exact h.written
  · show ReadsTexts ls (insideChars .outside ([c] ++ cs))
    rw [hinside]
    exact h.readsTexts

theorem IsScanned.lexeme (h : IsScanned after ls) (hraw : IsRaw l raw) :
    IsScanned (raw ++ after) (l :: ls) := by
  obtain ⟨hcloses, houtside, hinside⟩ := outside_append hraw.ne_marks after
  refine ⟨hcloses.mpr h.closes, ?_, ?_⟩
  · rw [houtside]
    exact .cons hraw.isWritten h.written
  · rw [hinside]
    exact .other hraw.ne_str h.readsTexts

theorem IsScanned.str {s : List Char} (h : IsScanned after ls)
    (hs : scanText cs = some (s, after)) :
    IsScanned ('"' :: cs) (.str (String.ofList s) :: ls) := by
  obtain ⟨hcloses, houtside, htext⟩ := (takesText_of_scanText hs).inside
  have hquote : outsideInk .outside ('"' :: cs) = ['"'] ++ outsideInk .inside cs := rfl
  refine ⟨⟨fun _ => by decide, hcloses h.closes⟩, ?_, .str htext.scanText_eq h.readsTexts⟩
  rw [hquote, houtside]
  exact .cons rfl h.written

/-- The lexemes that scanning gives are those of the statement. -/
theorem isScanned_of_scan {offset : Nat} {ts : List Token} (h : scan offset cs = .ok ts) :
    IsScanned cs (ts.map Token.lexeme) := by
  fun_induction scan offset cs generalizing ts with
  | case1 =>
    obtain rfl := Except.ok.inj h
    exact isScanned_nil
  | case2 _ c rest hc ih => exact (ih h).blank hc
  | case3 => cases h
  | case4 => cases h
  | case5 offset c rest hc l after hl tokens htokens ih =>
    obtain rfl := Except.ok.inj h
    rcases exists_isRaw_of_scanLexeme hl with ⟨raw, hsplit, hraw⟩ | ⟨s, rfl, rfl, hs⟩
    · rw [hsplit]
      exact (ih htokens).lexeme hraw
    · exact (ih htokens).str hs

/-! ## Texts -/

theorem withoutText_eq_self (h : ∀ s, l ≠ .str s) : l.withoutText = l := by
  cases l with
  | str s => exact absurd rfl (h s)
  | _ => rfl

theorem withoutText_eq_str_iff : l.withoutText = .str "" ↔ ∃ s, l = .str s := by
  constructor
  · intro h
    by_contra hne
    rw [not_exists] at hne
    exact hne "" (withoutText_eq_self hne ▸ h)
  · rintro ⟨s, rfl⟩
    rfl

/-- Lexemes that are the same apart from what their texts say are the same if their texts are read
from the same characters. -/
theorem eq_of_readsTexts (hls : ReadsTexts ls cs) (hms : ReadsTexts ms cs)
    (h : ls.map Lexeme.withoutText = ms.map Lexeme.withoutText) : ls = ms := by
  induction hls generalizing ms with
  | nil => exact (List.map_eq_nil_iff.mp h.symm).symm
  | str hs _ ih =>
    obtain ⟨m, ms, rfl, hm, htail⟩ := List.map_eq_cons_iff.mp h.symm
    obtain ⟨_, rfl⟩ := withoutText_eq_str_iff.mp hm
    cases hms with
    | str hs' hms =>
      obtain ⟨rfl, rfl⟩ := Prod.mk.inj (Option.some.inj (hs.symm.trans hs'))
      rw [ih hms htail.symm]
    | other hne _ => exact absurd rfl (hne _)
  | @other l ls cs hne _ ih =>
    obtain ⟨m, ms, rfl, hm, htail⟩ := List.map_eq_cons_iff.mp h.symm
    rw [withoutText_eq_self hne] at hm
    cases hms with
    | str => exact absurd hm.symm (hne "")
    | other hne' hms =>
      rw [withoutText_eq_self hne'] at hm
      rw [hm, ih hms htail.symm]

/-- Statements that differ in white space only have the same lexemes, apart from what texts say, if
each of their lexemes may follow the one before it. -/
theorem IsScanned.withoutText_eq {ds : List Char} (hcs : IsScanned cs ls) (hds : IsScanned ds ms)
    (h : Text.ink cs = Text.ink ds) (hls : ls.IsChain Lexeme.Meets)
    (hms : ms.IsChain Lexeme.Meets) :
    ls.map Lexeme.withoutText = ms.map Lexeme.withoutText ∧
      Text.ink (insideChars .outside cs) = Text.ink (insideChars .outside ds) := by
  obtain ⟨houtside, hinside⟩ :=
    agree_of_sameInk (Text.sameInk_of_ink_eq h) Iff.rfl hcs.closes hds.closes
  exact ⟨Lexeme.eq_of_written (houtside ▸ hcs.written) hds.written hls hms, hinside⟩

end BuildMatrix.Token
