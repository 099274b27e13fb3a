import BuildMatrix.Expr.Token
import BuildMatrix.Proofs.Text.Number
import BuildMatrix.Text.Quoted

/-!
# Quoted texts are read back, or not

Quoting has more escapes than a condition knows. One of the others is read without its backslash, so
that a text with such a character comes back as another one.

* `Text.IsKept`: the characters that come back.
* `Text.rereadChar`, `Text.reread`, `Text.rereadText`: what comes back for a character and a text.
* `Token.scanText_quoted`: the scanner gives back just that.
* `Text.rereadText_eq_self_iff`: a text comes back exactly when its characters do.
-/

namespace BuildMatrix

namespace Text

/-- Whether a character is quoted as itself or by one of the four escapes of conditions. -/
def IsKept (c : Char) : Prop :=
  quotedChar c = [c] ∨ quotedChar c ∈ [['\\', '"'], ['\\', '\\'], ['\\', 'n'], ['\\', 't']]

instance (c : Char) : Decidable (IsKept c) :=
  inferInstanceAs (Decidable (_ ∨ _))

/-- What is read for a quoted character. -/
def rereadChar (c : Char) : List Char :=
  if IsKept c then [c] else (quotedChar c).drop 1

/-- What is read for a quoted text. -/
def reread (cs : List Char) : List Char :=
  cs.flatMap rereadChar

theorem rereadChar_of_isKept {c : Char} (h : IsKept c) : rereadChar c = [c] :=
  if_pos h

/-- The character that an escape is read as. -/
def escaped (d : Char) : Char :=
  if d = 'n' then '\n' else if d = 't' then '\t' else d

/-- An escape that is not one of the four. -/
structure IsForeign (c d : Char) (ds : List Char) : Prop where
  quoted_eq : quotedChar c = '\\' :: d :: ds
  notMem : d ∉ ['"', '\\', 'n', 't']
  ne : d ≠ c
  plain : ∀ e ∈ ds, e ≠ '"' ∧ e ≠ '\\'

theorem IsForeign.not_isKept {c d : Char} {ds : List Char} (h : IsForeign c d ds) :
    ¬ IsKept c := by
  rw [IsKept, h.quoted_eq]
  have hd := h.notMem
  simp_all

theorem IsForeign.rereadChar_eq {c d : Char} {ds : List Char} (h : IsForeign c d ds) :
    rereadChar c = d :: ds := by
  rw [rereadChar, if_neg h.not_isKept, h.quoted_eq]
  rfl

/-- A character is quoted as itself, by one of the four escapes, or by another one. -/
theorem quotedChar_cases (c : Char) :
    (quotedChar c = [c] ∧ c ≠ '"' ∧ c ≠ '\\') ∨
      (∃ d, quotedChar c = ['\\', d] ∧ IsKept c ∧ escaped d = c) ∨ ∃ d ds, IsForeign c d ds := by
  by_cases hquote : c = '"'
  · exact Or.inr (Or.inl ⟨'"', by subst hquote; decide⟩)
  by_cases hslash : c = '\\'
  · exact Or.inr (Or.inl ⟨'\\', by subst hslash; decide⟩)
  by_cases hfeed : c = '\n'
  · exact Or.inr (Or.inl ⟨'n', by subst hfeed; decide⟩)
  by_cases htab : c = '\t'
  · exact Or.inr (Or.inl ⟨'t', by subst htab; decide⟩)
  by_cases hreturn : c = '\r'
  · subst hreturn
    exact Or.inr (Or.inr ⟨'r', [], rfl, by decide, by decide, by simp⟩)
  by_cases hnull : c = '\x00'
  · subst hnull
    exact Or.inr (Or.inr ⟨'0', [], rfl, by decide, by decide, by simp⟩)
  have hquoted : quotedChar c =
      if isVisible c then [c]
      else ['\\', 'u', '\x7b'] ++ Nat.toDigits 16 c.toNat ++ ['\x7d'] := by
    rw [quotedChar, if_neg hquote, if_neg hslash, if_neg hfeed, if_neg hreturn, if_neg htab,
      if_neg hnull]
  by_cases hvisible : isVisible c = true
  · exact Or.inl ⟨by rw [hquoted, if_pos hvisible], hquote, hslash⟩
  · rw [if_neg hvisible] at hquoted
    refine Or.inr (Or.inr ⟨'u', '\x7b' :: (Nat.toDigits 16 c.toNat ++ ['\x7d']), hquoted,
      by decide, ?_, ?_⟩)
    · rintro rfl
      exact hvisible (by decide)
    · intro e he
      have hdigits : ∀ k < 16, k.digitChar ≠ '"' ∧ k.digitChar ≠ '\\' := by decide
      rcases List.mem_cons.mp he with rfl | he
      · decide
      rcases List.mem_append.mp he with he | he
      · obtain ⟨k, hk, rfl⟩ := exists_digitChar_of_mem_toDigits (by decide) he
        exact hdigits k hk
      · rw [List.mem_singleton.mp he]
        decide

/-- A text comes back exactly when its characters do. -/
theorem reread_eq_self_iff {cs : List Char} : reread cs = cs ↔ ∀ c ∈ cs, IsKept c := by
  induction cs with
  | nil => simp [reread]
  | cons c cs ih =>
    rw [reread, List.flatMap_cons, List.forall_mem_cons, ← ih]
    constructor
    · intro h
      have hc : IsKept c := by
        rcases quotedChar_cases c with ⟨hself, -, -⟩ | ⟨d, -, hkept, -⟩ | ⟨d, ds, hforeign⟩
        · exact Or.inl hself
        · exact hkept
        · rw [hforeign.rereadChar_eq] at h
          exact absurd (List.cons.inj h).1 hforeign.ne
      rw [rereadChar_of_isKept hc] at h
      exact ⟨hc, (List.cons.inj h).2⟩
    · rintro ⟨hc, hcs⟩
      rw [rereadChar_of_isKept hc]
      exact congrArg (c :: ·) hcs

/-- What is read for the quoted form of a text. -/
def rereadText (s : String) : String :=
  String.ofList (reread s.toList)

/-- Whether every character of a text comes back. -/
def IsKeptText (s : String) : Prop :=
  ∀ c ∈ s.toList, IsKept c

instance (s : String) : Decidable (IsKeptText s) :=
  decidable_of_iff (s.toList.all (fun c => decide (IsKept c)) = true) (by simp [IsKeptText])

theorem rereadText_eq_self_iff {s : String} : rereadText s = s ↔ IsKeptText s := by
  rw [IsKeptText, ← reread_eq_self_iff]
  constructor
  · intro h
    have hlist := congrArg String.toList h
    rwa [rereadText, String.toList_ofList] at hlist
  · intro h
    rw [rereadText, h, String.ofList_toList]

end Text

/-! ## Scanning -/

namespace Token

open Text

theorem scanText_cons {c : Char} (hquote : c ≠ '"') (hslash : c ≠ '\\') (rest : List Char) :
    scanText (c :: rest) = (scanText rest).map fun p => (c :: p.1, p.2) := by
  rw [scanText.eq_def]
  split <;> simp_all

theorem scanText_append {cs : List Char} (h : ∀ c ∈ cs, c ≠ '"' ∧ c ≠ '\\') (rest : List Char) :
    scanText (cs ++ rest) = (scanText rest).map fun p => (cs ++ p.1, p.2) := by
  induction cs with
  | nil => simp
  | cons c cs ih =>
    obtain ⟨hquote, hslash⟩ := h c List.mem_cons_self
    rw [List.cons_append, scanText_cons hquote hslash,
      ih fun d hd => h d (List.mem_cons_of_mem _ hd), Option.map_map]
    rfl

theorem scanText_escape (d : Char) (rest : List Char) :
    scanText ('\\' :: d :: rest) = (scanText rest).map fun p => (escaped d :: p.1, p.2) := by
  rw [scanText]
  rfl

theorem scanText_quotedChar (c : Char) (rest : List Char) :
    scanText (quotedChar c ++ rest) =
      (scanText rest).map fun p => (rereadChar c ++ p.1, p.2) := by
  rcases quotedChar_cases c with ⟨hself, hquote, hslash⟩ | ⟨d, hquoted, hkept, hd⟩ |
    ⟨d, ds, hforeign⟩
  · rw [hself, rereadChar_of_isKept (Or.inl hself)]
    exact scanText_cons hquote hslash rest
  · rw [hquoted, rereadChar_of_isKept hkept, ← hd]
    exact scanText_escape d rest
  · have hd : escaped d = d := by
      have hnot := hforeign.notMem
      simp_all [escaped]
    rw [hforeign.quoted_eq, hforeign.rereadChar_eq]
    show scanText ('\\' :: d :: (ds ++ rest)) = _
    rw [scanText_escape, scanText_append hforeign.plain, hd, Option.map_map]
    rfl

/-- **Quoted texts.** Behind the opening quote of a quoted text, the scanner reads what comes back
for the text, up to the closing quote. -/
theorem scanText_quoted (cs rest : List Char) :
    scanText (cs.flatMap quotedChar ++ '"' :: rest) = some (reread cs, rest) := by
  induction cs with
  | nil => rfl
  | cons c cs ih =>
    rw [List.flatMap_cons, List.append_assoc, scanText_quotedChar, ih]
    rfl

end Token

end BuildMatrix
